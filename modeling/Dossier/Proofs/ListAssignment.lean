import Dossier.Proofs.ErrorPaths
import Dossier.Proofs.ListReading
import Dossier.Proofs.Plain

/-!
# Decoding a list and setting a field to it

An array can be decoded as a list, whose items are complete one after the other, or be supplied to a
field of lists, where the hooks of all items wait. Where hooks draw nothing, and deferred defaults
look at nothing but what has been drawn, that makes no difference: from the same supply both succeed
or both fail and the same is drawn (`Action.Parallel`). Building an object is like that, and what goes
through the items one by one is if their steps are. The paths of the two differ only in how a segment
is cut: the index of an item is one of its own in a list, and stands behind the name of the field in
the other, which reads the same.
-/

namespace Dossier

/-- Both errors are the same, with paths that read the same. -/
inductive EntityError.ReadsAs : EntityError → EntityError → Prop where
  | self (e : EntityError) : ReadsAs e e
  | atPath {p q : Path} (text : p.text = q.text) (cause : EntityError) :
      ReadsAs (.atPath p cause) (.atPath q cause)

namespace EntityError

/-- An index may be put behind the name of a field first. -/
theorem readsAs_within {index : String} (bracket : Path.isIndex index = true) (name : String)
    (e : EntityError) : (e.within (name ++ index)).ReadsAs ((e.within index).within name) := by
  cases e with
  | atPath path cause => exact .atPath (Path.text_index bracket name path).symm cause
  | _ => exact .atPath (Path.text_index bracket name []).symm _

end EntityError

theorem Path.isIndex_item (index : Nat) : isIndex ("[" ++ toString index ++ "]") = true := by
  rw [String.append_assoc, isIndex_append (by decide)]
  rfl

/-- The hooks that a name stands for leave the sources of identifiers and time alone. -/
def Context.DrawlessHooks (ctx : Context) : Prop :=
  ∀ name e store, (ctx.hooks name e store).supply = store.supply

theorem Context.DrawlessHooks.runHooks {ctx : Context} (drawless : ctx.DrawlessHooks)
    (calls : List HookCall) (store : Store) :
    (ctx.runHooks calls store).supply = store.supply := by
  refine ctx.runHooks_supply (fun call _ store => ?_) store
  cases call.hook with
  | cacheEntity => exact ctx.cacheEntity_supply call.entity store
  | named name => exact drawless name call.entity store

/-- The deferred defaults of fields look at nothing in a store but how much has been drawn. -/
def Context.AnswersBySupply (ctx : Context) : Prop :=
  ∀ key, ∀ f ∈ (ctx.typeOf key).fields, ∀ name, f.default? = some (.deferred name) →
    ∀ assigned (store other : Store), store.supply = other.supply →
      (ctx.defaults name ⟨ctx.typeOf key, assigned⟩ store).1 =
          (ctx.defaults name ⟨ctx.typeOf key, assigned⟩ other).1 ∧
        (ctx.defaults name ⟨ctx.typeOf key, assigned⟩ store).2.supply =
          (ctx.defaults name ⟨ctx.typeOf key, assigned⟩ other).2.supply

/-- From the same supply the builds come to the same and leave the same of it, whatever else is in
the stores. -/
def Build.BySupply {α : Type} (x y : Build α) : Prop :=
  ∀ store other : Store, store.supply = other.supply →
    (x.bare store).1 = (y.bare other).1 ∧ (x.bare store).2.supply = (y.bare other).2.supply

namespace Build.BySupply

variable {α β : Type} {x y : Build α}

theorem bind {f g : α → Build β} (first : BySupply x y)
    (later : ∀ value, BySupply (f value) (g value)) : BySupply (x >>= f) (y >>= g) := by
  intro store other same
  obtain ⟨outcome, left⟩ := first store other same
  rw [bare_bind, bare_bind]
  generalize x.bare store = run, y.bare other = second at outcome left ⊢
  obtain ⟨_ | value, between⟩ := run <;> obtain ⟨given, behind⟩ := second <;>
    obtain rfl : _ = given := outcome
  · exact ⟨rfl, left⟩
  · exact later value between behind left

theorem congruence : Congruence BySupply where
  pure _ _ _ same := ⟨rfl, same⟩
  fail _ _ _ same := ⟨rfl, same⟩
  leave _ _ _ same := ⟨rfl, same⟩
  drawId ids typeName store other same := by
    show Except.ok _ = Except.ok _ ∧ Supply.mk _ _ = Supply.mk _ _
    rw [same]
    exact ⟨rfl, rfl⟩
  readClock clock store other same := by
    show Except.ok _ = Except.ok _ ∧ Supply.mk _ _ = Supply.mk _ _
    rw [same]
    exact ⟨rfl, rfl⟩
  bind := bind
  attempt h store other same := by
    obtain ⟨outcome, left⟩ := h store other same
    rw [bare_attempt, bare_attempt, outcome]
    exact ⟨rfl, left⟩
  within segment h store other same := by
    obtain ⟨outcome, left⟩ := h store other same
    rw [bare_within, bare_within, outcome]
    exact ⟨rfl, left⟩

end Build.BySupply

/-- Where deferred defaults look at the supply only, so does building. -/
theorem Context.AnswersBySupply.build {ctx : Context} (bySupply : ctx.AnswersBySupply) :
    ctx.build.Related Build.BySupply ctx.build := by
  refine Context.build_refitted ctx.hooks ctx.config.cacheEntities ctx.defaults
    Build.BySupply.congruence ?_
  intro key f declared name deferred assigned store other same
  obtain ⟨answer, left⟩ := bySupply key f declared name deferred assigned store other same
  exact ⟨congrArg Except.ok answer, left⟩

/-! ## Operations and builds in parallel -/

namespace Action

variable {α β γ δ : Type} {tell : EntityError → EntityError → Prop} {give : α → β} {x : Action α}
  {y : Build β}

/-- From the same supply the operation and the build both succeed, with what `give` makes of one
value for the other, or both fail, with errors that `tell` relates, and the same is left of the
supply. -/
def Parallel (tell : EntityError → EntityError → Prop) (give : α → β) (x : Action α)
    (y : Build β) : Prop :=
  ∀ store other : Store, store.supply = other.supply → ∃ after left : Store,
    after.supply = left.supply ∧
    ((∃ value calls, x.run.run store = (.ok value, after) ∧
      y other = (.ok (give value, calls), left)) ∨
    ∃ d e, x.run.run store = (.error d, after) ∧ y other = (.error e, left) ∧ tell d e)

namespace Parallel

theorem pure (value : α) : Parallel tell give (pure value) (Pure.pure (give value)) :=
  fun store other same => ⟨store, other, same, .inl ⟨value, [], rfl, rfl⟩⟩

theorem bind {make : γ → δ} {f : α → Action γ} {g : β → Build δ} (h : Parallel tell give x y)
    (later : ∀ value, Parallel tell make (f value) (g (give value))) :
    Parallel tell make (x >>= f) (y >>= g) := by
  intro store other same
  obtain ⟨between, behind, rest, ⟨value, calls, hx, hy⟩ | ⟨d, e, hx, hy, told⟩⟩ := h store other same
  · rw [bind_run_ok hx, Build.bind_run_ok hy]
    obtain ⟨after, left, last, ⟨result, more, hf, hg⟩ | ⟨d, e, hf, hg, told⟩⟩ :=
      later value between behind rest
    · rw [hf, hg]
      exact ⟨after, left, last, .inl ⟨result, _, rfl, rfl⟩⟩
    · rw [hf, hg]
      exact ⟨after, left, last, .inr ⟨d, e, rfl, rfl, told⟩⟩
  · exact ⟨between, behind, rest,
      .inr ⟨d, e, bind_run_error hx f, Build.bind_run_error hy g, told⟩⟩

/-- A build that looks at the supply only is in parallel to finishing it, as hooks draw nothing,
whatever segments the errors of both are then seen through. -/
theorem finish {ctx : Context} (drawless : ctx.DrawlessHooks) (give : α → β) {x : Build α}
    (bySupply : x.BySupply x) {segment other : String}
    (told : ∀ e : EntityError, tell (e.within segment) (e.within other)) :
    Parallel tell give ((x.finish ctx).within segment) (give <$> x.within other) := by
  intro store start same
  obtain ⟨outcome, left⟩ := bySupply store start same
  rw [map_eq_pure_bind]
  rcases run : x store with ⟨e | ⟨value, calls⟩, after⟩ <;>
    rcases second : x start with ⟨d | ⟨given, more⟩, behind⟩ <;>
    simp only [Build.bare, run, second, Except.map] at outcome left
  · obtain rfl := Except.error.inj outcome
    refine ⟨after, behind, left, .inr ⟨_, _,
      within_run_error (Build.finish_run_error run) segment, ?_, told e⟩⟩
    exact Build.bind_run_error (Build.within_run_error second other) _
  · cases outcome
  · cases outcome
  · obtain rfl : value = given := Except.ok.inj outcome
    refine ⟨_, behind, ?_, .inl ⟨value, more ++ [],
      within_run_ok (Build.finish_run_ok run) segment, ?_⟩⟩
    · rw [drawless.runHooks, left]
    · rw [Build.bind_run_ok (Build.within_run_ok second other)]
      rfl

end Parallel

end Action

/-! ## Objects as items and as values -/

/-- Elements that an object is built to in the same way whether it is an item of a list or is
supplied to a field. -/
class BuiltListable (α : Type) [Listable α] [FieldListable α] : Prop where
  built (ctx : Context) (type : TypeKey) (entries : Table Json) : ∃ x : Build α,
    Listable.ofJson ctx type (.object entries) = x.finish ctx ∧
    (ctx.AnswersBySupply → x.BySupply x) ∧
    ∀ (f : Field) (owner : EntityType) (segment : String), f.kind = FieldListable.kind α type →
      f.coerceKind ctx ctx.build owner segment (.mapping (Mapping.ofJson entries)) =
        Listable.toValue <$> x.within segment

instance : BuiltListable Entity where
  built ctx type entries := by
    refine ⟨ctx.build type (Mapping.ofJson entries), rfl,
      fun bySupply => bySupply.build type (Mapping.ofJson entries), fun f owner segment kind => ?_⟩
    unfold Field.coerceKind
    rw [kind]
    rfl

instance : BuiltListable RelatedObject where
  built ctx type entries := by
    refine ⟨RelatedObject.ofRecord ctx.build type (Mapping.ofJson entries)
      (RelatedObject.presentationOf (Mapping.ofJson entries)), rfl, fun bySupply => ?_,
      fun f owner segment kind => ?_⟩
    · exact RelatedObject.ofRecord_related Build.BySupply.congruence bySupply.build type _ _
    · unfold Field.coerceKind
      rw [kind]
      rfl

namespace EntityList

variable {α : Type} [Listable α] [FieldListable α] [BuiltListable α] {ctx : Context}
  {type : TypeKey} {f : Field}

/-- What a list is refused for is told within the field. -/
def ToldBy (f : Field) (d e : EntityError) : Prop := e.ReadsAs (d.within f.name)

/-- One object: the list tells its index, and the field the name with the index behind it. -/
theorem item_parallel (drawless : ctx.DrawlessHooks)
    (bySupply : ctx.AnswersBySupply) (kind : f.kind = FieldListable.kind α type)
    (unvalidated : f.validator = none) (owner : EntityType) (index : Nat) (entries : Table Json) :
    Action.Parallel (ToldBy f) Listable.toValue
      (Action.within ("[" ++ toString index ++ "]")
        (Listable.ofJson ctx type (.object entries) : Action α))
      (f.coerceSingle ctx ctx.build owner (f.itemSegment index)
        (.mapping (Mapping.ofJson entries))) := by
  obtain ⟨x, finished, alone, built⟩ := @BuiltListable.built α _ _ _ ctx type entries
  have told : ∀ e : EntityError, ToldBy f (e.within ("[" ++ toString index ++ "]"))
      (e.within (f.itemSegment index)) := by
    intro e
    have joined : f.itemSegment index = f.name ++ ("[" ++ toString index ++ "]") := by
      rw [Field.itemSegment, String.append_assoc, String.append_assoc, String.append_assoc]
    rw [joined]
    exact EntityError.readsAs_within (Path.isIndex_item index) f.name e
  have passed : ∀ value : Value, f.validate value = .ok () := by
    intro value
    rw [Field.validate, unvalidated]
  rw [finished, Field.coerceSingle, built f owner _ kind]
  simp only [passed, bind_pure]
  exact .finish drawless Listable.toValue (alone bySupply) told

/-- One object after the other, by induction on them. -/
theorem items_parallel (drawless : ctx.DrawlessHooks)
    (bySupply : ctx.AnswersBySupply) (kind : f.kind = FieldListable.kind α type)
    (unvalidated : f.validator = none) (owner : EntityType) (index : Nat)
    (objects : List (Table Json)) :
    Action.Parallel (ToldBy f) (List.map Listable.toValue)
      (itemsOfJson ctx type index (objects.map .object) : Action (List α))
      (f.coerceItems ctx ctx.build owner index
        (objects.map fun entries => .mapping (Mapping.ofJson entries))) := by
  induction objects generalizing index with
  | nil => exact .pure []
  | cons entries objects ih =>
    refine (item_parallel drawless bySupply kind unvalidated owner index entries).bind fun item => ?_
    exact (ih (index + 1)).bind fun items => .pure (item :: items)

theorem ofJson_parallel (drawless : ctx.DrawlessHooks)
    (bySupply : ctx.AnswersBySupply) (kind : f.kind = FieldListable.kind α type)
    (multiple : f.isMultiple = true) (unvalidated : f.validator = none)
    {objects : List (Table Json)} (offered : f.isRequired = true → objects ≠ [])
    (owner : EntityType) :
    Action.Parallel (ToldBy f) toValue
      (ofJson ctx type (.array (objects.map .object)) : Action (EntityList α))
      (f.coerce ctx ctx.build owner (.ofJson (.array (objects.map .object)))) := by
  have read : Value.ofJson (.array (objects.map .object)) =
      .list (objects.map fun entries => .mapping (Mapping.ofJson entries)) := by
    rw [Value.ofJson, Value.itemsOfJson_eq, List.filter_eq_self.2 (by simp [Json.isNull]),
      List.map_map]
    rfl
  have taken : ((objects.map fun entries => Value.mapping (Mapping.ofJson entries)).isEmpty &&
      f.isRequired) = false := by
    cases objects with
    | nil => exact Bool.eq_false_iff.2 fun required => offered required rfl
    | cons => rfl
  rw [read, Field.coerce, multiple, if_pos rfl, Field.itemsOf, taken, if_neg Bool.false_ne_true,
    map_eq_pure_bind]
  exact (items_parallel drawless bySupply kind unvalidated owner 0 objects).bind fun items =>
    .pure ({ elementType := type, items } : EntityList α)

/-- **A list is decoded as a field is set to it.** For a field of lists without a validator that
holds entities of a type, or related objects, and an array of objects that the field may be set to:
decoding the array as a list and coercing it for the field, with the same supply, both succeed,
with the same items in the same order, or both fail, the field with the error of the list told
within the field; and the same is drawn. In a list the hooks of an item run before the next is built:
so they must draw nothing, and deferred defaults must not look at what they do. -/
theorem ofJson_coerce {ctx : Context} (drawless : ctx.DrawlessHooks)
    (bySupply : ctx.AnswersBySupply) {f : Field}
    (multiple : f.isMultiple = true) (unvalidated : f.validator = none)
    {objects : List (Table Json)} (offered : f.isRequired = true → objects ≠ [])
    (owner : EntityType) (type : TypeKey) :
    let array := Json.array (objects.map .object)
    let coerced := f.coerce ctx ctx.build owner (.ofJson array)
    (f.kind = .entity type →
      Action.Parallel (ToldBy f) toValue (ofJson ctx type array : Action (EntityList Entity))
        coerced) ∧
    (f.kind = .related type →
      Action.Parallel (ToldBy f) toValue (ofJson ctx type array : Action (EntityList RelatedObject))
        coerced) :=
  ⟨fun kind => ofJson_parallel drawless bySupply kind multiple unvalidated offered owner,
    fun kind => ofJson_parallel drawless bySupply kind multiple unvalidated offered owner⟩

namespace ListAssignment

/-- An object, and one with a colour, which objects do not have. -/
def seenThenColoured : List (Table Json) :=
  [[("state", .string "seen")], [("colour", .string "red")]]

/-- A field of objects themselves. -/
def objects : Field := (Field.entity "objects" Catalog.objectKey).list.require

example : (Reachable.relatedObjects.coerce Request.bareContext Request.bareContext.build
    Catalog.objectType (.ofJson (.array (seenThenColoured.map .object))) {}).1 =
      .error (.atPath ["related_objects[1]"] (.unexpectedProperties "Object" ["colour"])) := rfl

/-- The array as a list of either sort, and for a field of either. -/
theorem seenThenColoured_coerced :
    Action.Parallel (ToldBy Reachable.relatedObjects) toValue
      (ofJson Request.bareContext Catalog.objectKey (.array (seenThenColoured.map .object)) :
        Action (EntityList RelatedObject))
      (Reachable.relatedObjects.coerce Request.bareContext Request.bareContext.build
        Catalog.objectType (.ofJson (.array (seenThenColoured.map .object)))) ∧
    Action.Parallel (ToldBy objects) toValue
      (ofJson Request.bareContext Catalog.objectKey (.array (seenThenColoured.map .object)) :
        Action (EntityList Entity))
      (objects.coerce Request.bareContext Request.bareContext.build Catalog.objectType
        (.ofJson (.array (seenThenColoured.map .object)))) := by
  have drawless : Request.bareContext.DrawlessHooks := fun _ _ _ => rfl
  have bySupply : Request.bareContext.AnswersBySupply := fun _ _ _ _ _ _ _ _ same => ⟨rfl, same⟩
  have offered : objects.isRequired = true → seenThenColoured ≠ [] := fun _ => List.cons_ne_nil _ _
  have related := @ofJson_coerce Request.bareContext drawless bySupply Reachable.relatedObjects
    rfl rfl seenThenColoured nofun Catalog.objectType Catalog.objectKey
  have held := @ofJson_coerce Request.bareContext drawless bySupply objects rfl rfl
    seenThenColoured offered Catalog.objectType Catalog.objectKey
  exact ⟨related.2 rfl, held.1 rfl⟩

/-! ## Hooks that draw -/

def ticketKey : TypeKey := ⟨"Ticket"⟩

/-- A ticket is numbered, and stamped once it is complete. -/
def ticketType : EntityType where
  name := "Ticket"
  typeName := "ticket"
  fields := [((Field.text "id").withDefault .generateId).withHook (.named "stamp")]

/-- Stamping draws an identifier. -/
def stampContext : Context where
  schema := { typeOf := fun _ => ticketType }
  ids := .sequential
  clock := .fixed .epoch
  hooks := fun _ _ store => { store with supply.drawn := store.supply.drawn + 1 }

def ticket (number : Nat) : Entity where
  typeKey := ticketKey
  values := [("id", .string (stampContext.ids.draw number "ticket").text)]
  extras := []

def tickets : Field := (Field.entity "tickets" ticketKey).list

/-- In a list the first ticket is stamped before the second is numbered; in a field both are numbered
first. -/
theorem stamped_apart :
    ((ofJson stampContext ticketKey (.array [.object [], .object []]) :
      Action (EntityList Entity)).run.run {}).1 =
        .ok ⟨ticketKey, [ticket 1, ticket 3]⟩ ∧
    (tickets.coerce stampContext stampContext.build ticketType
      (.ofJson (.array [.object [], .object []])) {}).1.map Prod.fst =
        .ok (.list [.entity (ticket 1), .entity (ticket 2)]) ∧
    ticket 3 ≠ ticket 2 := by
  have numbered : (stampContext.ids.draw 3 "ticket").text ≠
      (stampContext.ids.draw 2 "ticket").text := by decide
  refine ⟨rfl, rfl, ?_⟩
  simp [ticket, numbered]

end ListAssignment

end EntityList

end Dossier
