import Dossier.EntityList
import Dossier.Proofs.HookCalls

/-!
# Decoding lists

The items of an array are decoded one after the other, each complete before the next:
its hooks have run by then (`DecodedInTurn`). So an array that is refused for one of its
items leaves behind what the items before it have left, their cached entities included,
and nothing of that item and of those after it (`EntityList.ofJson_failed`).
-/

namespace Dossier

/-- Elements whose decoding is one construction: it runs the hooks of all that was built once it
has succeeded, and none if it fails. -/
class LawfulListable (α : Type) [Listable α] : Prop where
  failAlike (ctx : Context) (hooks : String → Entity → Store → Store) (caching : Bool)
    (type : TypeKey) (json : Json) :
    (Listable.ofJson ctx type json : Action α).FailAlike ctx
      (Listable.ofJson (ctx.hooked hooks caching) type json)
  hooked {ctx : Context} {type : TypeKey} {json : Json} {store after : Store} {item : α}
    (decoded : (Listable.ofJson ctx type json).run.run store = (.ok item, after)) :
    ∃ outermost, HooksRan ctx ((Listable.toValue item).builtFrom ctx (.ofJson json) store) outermost
      store after

instance : LawfulListable Entity where
  failAlike := Request.ofJson_failAlike
  hooked := by
    intro ctx type json store after e decoded
    cases json with
    | object entries => exact ⟨some e, .of_mapping decoded⟩
    | _ => exact absurd (Prod.mk.inj decoded).1 (by simp)

instance : LawfulListable RelatedObject where
  failAlike ctx hooks caching type json := by
    cases json with
    | object entries => exact Request.ofMappingAs_failAlike ctx hooks caching type _ _
    | _ => exact .throw _
  hooked := by
    intro ctx type json store after r decoded
    cases json with
    | object entries => exact ⟨r.embedded?, .of_record decoded⟩
    | _ => exact absurd (Prod.mk.inj decoded).1 (by simp)

namespace EntityList

variable {α : Type} [Listable α] {ctx : Context} {type : TypeKey}

/-! ## One item after the other -/

/-- The entities that are built for the items of an array, each after the hooks of the one before it
have run. -/
def builtFor (ctx : Context) : List α → List Json → Store → List Entity
  | item :: items, json :: array, store =>
    let (built, between) := (Listable.toValue item).builtFrom ctx (.ofJson json) store
    built ++ builtFor ctx items array (ctx.runHooks (hookCallsOf ctx.schema built) between)
  | _, _, _ => []

variable (ctx type) in
/-- The items of an array are decoded one after the other. Before the next item is, the hooks of
all that was built for this one have run. -/
inductive DecodedInTurn : List Json → List α → Store → Store → Prop where
  | nil {store : Store} : DecodedInTurn [] [] store store
  | next {json : Json} {item : α} {array : List Json} {items : List α} {store between after : Store}
    {outermost : Option Entity}
    (decoded : (Listable.ofJson ctx type json).run.run store = (.ok item, between))
    (hooked : HooksRan ctx ((Listable.toValue item).builtFrom ctx (.ofJson json) store) outermost
      store between)
    (later : DecodedInTurn array items between after) :
    DecodedInTurn (json :: array) (item :: items) store after

namespace DecodedInTurn

variable {array : List Json} {items : List α} {store after : Store}

/-- Items for which no hooks are to be run only draft. -/
theorem drafts_of_no_calls (h : DecodedInTurn ctx type array items store after)
    (none : hookCallsOf ctx.schema (builtFor ctx items array store) = []) :
    ∃ asks, ctx.Drafts store asks after := by
  induction h with
  | nil => exact ⟨[], .refl⟩
  | next decoded hooked later ih =>
    rw [builtFor, hookCallsOf_append, List.append_eq_nil_iff] at none
    obtain ⟨asks, drafted⟩ := hooked.drafted
    have ran := hooked.ran
    obtain ⟨more, rest⟩ := ih (ran ▸ none.2)
    rw [none.1] at ran
    subst ran
    exact ⟨asks ++ more, drafted.trans rest⟩

/-- If the hooks only cache and deferred defaults leave the cache alone, it holds what was built for
the items on top of what it held. -/
theorem cache_eq (h : DecodedInTurn ctx type array items store after) (spares : ctx.SparesCache)
    (caches : ctx.OnlyCaches (hookCallsOf ctx.schema (builtFor ctx items array store))) :
    after.cache = store.cache.registerAll ctx.schema
      ((hookCallsOf ctx.schema (builtFor ctx items array store)).map (·.entity)) := by
  induction h with
  | nil => rfl
  | next decoded hooked later ih =>
    rw [builtFor, hookCallsOf_append] at caches ⊢
    obtain ⟨caching, only⟩ := caches
    obtain ⟨first, rest⟩ := List.forall_mem_append.1 only
    have ran := hooked.ran
    rw [← ran] at rest ⊢
    rw [ih ⟨caching, rest⟩, hooked.cached ⟨caching, first⟩, hooked.spared spares,
      List.map_append, Cache.registerAll_append]

end DecodedInTurn

variable (α ctx type) in
/-- How an array is refused, and what is left in the store then. -/
inductive Refused (store : Store) : Json → EntityError → Store → Prop where
  /-- A document that is no array is not looked into. -/
  | notAList {json : Json} (other : ∀ array, json ≠ .array array) :
    Refused store json (.notAList json.kind) store
  /-- The first item that cannot be decoded is refused in the store that those before it have
  left, their hooks included, and as it is with any hooks. Nothing is built for those after it. -/
  | item {before later : List Json} {refused : Json} {items : List α} {between after : Store}
    {cause : EntityError} (earlier : DecodedInTurn ctx type before items store between)
    (refusal : (Listable.ofJson ctx type refused : Action α).run.run between = (.error cause, after))
    (alike : ∀ hooks caching,
      (Listable.ofJson (ctx.hooked hooks caching) type refused : Action α).run.run between =
        (.error cause, after))
    -- drawing is all that it has done, but for what deferred defaults do where there are any
    (untouched : ∃ asks, ctx.Drafts between asks after)
    (undeferred : ctx.schema.NoneDeferred → after = { between with supply := after.supply })
    -- what was drafted is all that is left if there were no hooks to run for the items before
    (unhooked : hookCallsOf ctx.schema (builtFor ctx items before store) = [] →
      (∃ asks, ctx.Drafts store asks after) ∧
        (ctx.schema.NoneDeferred → after = { store with supply := after.supply }))
    -- and otherwise what was built for them stays in the cache
    (cached : ctx.SparesCache →
      ctx.OnlyCaches (hookCallsOf ctx.schema (builtFor ctx items before store)) →
      after.cache = store.cache.registerAll ctx.schema
        ((hookCallsOf ctx.schema (builtFor ctx items before store)).map (·.entity))) :
    Refused store (.array (before ++ refused :: later))
      (cause.within ("[" ++ toString before.length ++ "]")) after

variable [LawfulListable α]

/-- What decoding the items of an array comes to: all of them decoded in turn, or those before the
first one that is refused, which is decoded in the store that they leave. -/
theorem itemsOfJson_outcome (index : Nat) (array : List Json) (store : Store) :
    (∃ (items : List α) (after : Store),
      (itemsOfJson ctx type index array).run.run store = (.ok items, after) ∧
        DecodedInTurn ctx type array items store after) ∨
    ∃ (before : List Json) (refused : Json) (later : List Json) (items : List α)
      (between after : Store) (cause : EntityError),
      array = before ++ refused :: later ∧
      DecodedInTurn ctx type before items store between ∧
      (Listable.ofJson ctx type refused : Action α).run.run between = (.error cause, after) ∧
      (itemsOfJson ctx type index array : Action (List α)).run.run store =
        (.error (cause.within ("[" ++ toString (index + before.length) ++ "]")), after) := by
  induction array generalizing index store with
  | nil => exact .inl ⟨[], store, rfl, .nil⟩
  | cons json array ih =>
    rcases decoded : (Listable.ofJson ctx type json : Action α).run.run store with
      ⟨cause | item, between⟩
    · refine .inr ⟨[], json, array, [], store, between, cause, rfl, .nil, decoded, ?_⟩
      exact Action.bind_run_error (Action.within_run_error decoded _) _
    · obtain ⟨outermost, hooked⟩ := LawfulListable.hooked decoded
      -- the others are decoded in the store that this one and its hooks have left
      have step := Action.bind_run_ok (Action.within_run_ok decoded ("[" ++ toString index ++ "]"))
        fun item => return item :: (← itemsOfJson ctx type (index + 1) array)
      rcases ih (index + 1) between with ⟨items, after, run, later⟩ |
        ⟨before, refused, later, items, last, after, cause, rfl, earlier, refusal, run⟩
      · refine .inl ⟨item :: items, after, ?_, .next decoded hooked later⟩
        exact step.trans (Action.bind_run_ok run _)
      · refine .inr ⟨json :: before, refused, later, item :: items, last, after, cause, rfl,
          .next decoded hooked earlier, refusal, ?_⟩
        rw [List.length_cons, Nat.add_comm before.length, ← Nat.add_assoc]
        exact step.trans (Action.bind_run_error run _)

theorem refused_of_error {json : Json} {store after : Store} {e : EntityError}
    (failed : (ofJson ctx type json : Action (EntityList α)).run.run store = (.error e, after)) :
    Refused α ctx type store json e after := by
  cases json with
  | array array =>
    rcases @itemsOfJson_outcome α _ ctx type _ 0 array store with
      ⟨items, last, run, -⟩ |
      ⟨before, refused, later, items, between, last, cause, rfl, earlier, refusal, run⟩
    · rw [ofJson, Action.bind_run_ok run] at failed
      exact absurd (Prod.mk.inj failed).1 (by simp)
    · rw [ofJson, Action.bind_run_error run, Nat.zero_add] at failed
      obtain ⟨told, rfl⟩ := Prod.mk.inj failed
      obtain rfl := Except.error.inj told
      -- the item that is refused is one operation, and fails as with any other hooks
      have alike := fun hooks caching =>
        LawfulListable.failAlike ctx hooks caching type refused between cause last refusal
      have untouched := (alike ctx.hooks true).1
      obtain ⟨asks, drafted⟩ := untouched
      refine .item earlier refusal (fun hooks caching => (alike hooks caching).2) ⟨asks, drafted⟩
        drafted.eq_of_noneDeferred ?_ ?_
      · intro none
        obtain ⟨first, drafts⟩ := earlier.drafts_of_no_calls none
        have all := drafts.trans drafted
        exact ⟨⟨first ++ asks, all⟩, all.eq_of_noneDeferred⟩
      · intro spares caches
        rw [← earlier.cache_eq spares caches]
        exact drafted.cache_eq fun ask member => spares ask (drafted.declared ask member)
  | _ =>
    obtain ⟨told, rfl⟩ := Prod.mk.inj failed
    obtain rfl := Except.error.inj told
    exact .notAList fun array => by simp

/-- **A list that is refused**, of entities or of related objects, is no array or is refused for
its first item that cannot be decoded alone. That item leaves nothing but what was drafted for it,
and its hooks do not run; those of the items before it have, and what they cached stays. -/
theorem ofJson_failed (ctx : Context) (type : TypeKey) (json : Json) (store after : Store)
    (e : EntityError) :
    ((ofJson ctx type json : Action (EntityList Entity)).run.run store = (.error e, after) →
      Refused Entity ctx type store json e after) ∧
    ((ofJson ctx type json : Action (EntityList RelatedObject)).run.run store = (.error e, after) →
      Refused RelatedObject ctx type store json e after) :=
  ⟨refused_of_error, refused_of_error⟩

/-- An object, and a text in the place of another. -/
def objectThenText : Json :=
  .array [
    .object [
      ("id", .string "object--00000000-0000-4000-8000-000000000001"),
      ("state", .string "seen")],
    .string "x"]

/-- The cache with the object in it. -/
def objectCached : Store where
  cache := ⟨[("object--00000000-0000-4000-8000-000000000001",
    { typeKey := Catalog.objectKey
      values :=
        [("id", .string "object--00000000-0000-4000-8000-000000000001"),
          ("state", .string "seen")]
      extras := [] })]⟩

/-- The text is refused, and the object before it is in the cache. -/
theorem objectThenText_cached :
    (ofJson Request.bareContext Catalog.objectKey objectThenText :
      Action (EntityList Entity)).run.run {} =
        (.error (.atPath ["[1]"] (.notAMapping .string)), objectCached) ∧
    (ofJson Request.bareContext Catalog.objectKey objectThenText :
      Action (EntityList RelatedObject)).run.run {} =
        (.error (.atPath ["[1]"] (.notAMapping .string)), objectCached) ∧
    objectCached.cache ≠ ({} : Store).cache :=
  ⟨rfl, rfl, by simp [objectCached]⟩

theorem objectThenText_refused :
    Refused Entity Request.bareContext Catalog.objectKey {} objectThenText
      (.atPath ["[1]"] (.notAMapping .string)) objectCached ∧
    Refused RelatedObject Request.bareContext Catalog.objectKey {} objectThenText
      (.atPath ["[1]"] (.notAMapping .string)) objectCached :=
  ⟨(ofJson_failed _ _ _ _ _ _).1 rfl, (ofJson_failed _ _ _ _ _ _).2 rfl⟩

end EntityList

end Dossier
