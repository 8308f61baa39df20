import Dossier.Proofs.Reassignment
import Dossier.Proofs.Registries

/-!
# Types told beforehand

The type that a supplied value will be built as is told without building it. It is told
by a function of its own, which goes through the kinds of fields and the sorts of values
as coercion does. The two agree (`Field.builtType?_agrees`): what comes of coercion is of
the type told, and coercion fails with the error where no type can be told.
-/

namespace Dossier

/-- The entity that a value is, or that a related object holds inline. -/
def Value.held? : Value → Option Entity
  | entity e => some e
  | related r => r.embedded?
  | _ => none

/-- A leaf is no entity. -/
theorem LeafKind.held?_of_holds {kind : LeafKind} {value : Value} (h : kind.Holds value) :
    value.held? = none := by
  cases value with
  | entity e => cases kind <;> exact absurd h id
  | related r => cases kind <;> exact absurd h id
  | _ => rfl

/-- An error of telling a type, as coercion reports it: what is wrong with the tag is told with the
place of the value. -/
def EntityError.reported (segment : String) : EntityError → EntityError
  | missingDiscriminator registry key => (missingDiscriminator registry key).within segment
  | unknownDiscriminator registry tag => (unknownDiscriminator registry tag).within segment
  | error => error

/-- No registry is found for reasons of the name. -/
theorem Context.reported_of_registry {ctx : Context} {name : String} {err : EntityError}
    (failed : ctx.registry name = .error err) (segment : String) : err.reported segment = err := by
  unfold registry at failed
  split at failed
  · cases failed
  · cases failed
    rfl

/-- A registry picks no type of a mapping by reason of its tag. -/
theorem Registry.reported_of_pick {registry : Registry} {m : Mapping} {err : EntityError}
    (failed : registry.pick m = .error err) (segment : String) :
    err.reported segment = err.within segment := by
  unfold pick lookup at failed
  split at failed
  · split at failed
    · cases failed
    · cases failed
      rfl
  · cases failed
    rfl

namespace Field

variable {ctx : Context} {build : Builder} {owner : EntityType} {f : Field} {raw : Value}

/-- What is told of a value that comes to an entity: a type that the entity is of, and that very
type if the value was a mapping. -/
def Told (ctx : Context) (f : Field) (raw : Value) (e : Entity) : Prop :=
  ∃ type, f.builtType? ctx raw = .ok (some type) ∧ e.isOf ctx.schema (ctx.typeOf type) ∧
    (raw.mapping?.isSome → e.typeKey = type)

theorem told_of_typeKey {e : Entity} (resolved : f.builtType? ctx raw = .ok (some e.typeKey)) :
    f.Told ctx raw e := ⟨_, resolved, EntityType.sameAs_self _, fun _ => rfl⟩

/-- In a registry that is known, a type is told of mappings by their tag and of entities as it is. -/
theorem builtType?_known {name : String} {registry : Registry} (kind : f.kind = .polymorphic name)
    (found : ctx.registry name = .ok registry) (raw : Value) :
    f.builtType? ctx raw = match raw with
      | .mapping entries => some <$> registry.pick entries
      | .entity e => .ok (some e.typeKey)
      | _ => .ok none := by
  rw [builtType?, kind]
  dsimp only
  rw [found]
  cases raw <;> rfl

section Told

variable (made : ∀ type m, (build type m).Ensures fun e => e.typeKey = type)

include made

theorem coerceEntity_told {type : TypeKey} (kind : f.kind = .entity type) (segment : String) :
    (f.coerceEntity ctx build owner segment type raw).Ensures fun value =>
      ∀ e, value.held? = some e → f.Told ctx raw e := by
  have resolved : f.builtType? ctx raw = .ok (some type) := by rw [builtType?, kind]
  cases raw with
  | mapping entries =>
    refine .map (.within _ ((made type entries).mono ?_))
    rintro e rfl d ⟨⟩
    exact told_of_typeKey resolved
  | entity e =>
    rw [coerceEntity]
    split
    · next fits =>
      refine .pure ?_
      rintro d ⟨⟩
      exact ⟨type, resolved, fits, by rintro ⟨⟩⟩
    · exact .fail _
  | _ => exact .fail _

theorem coercePolymorphic_told {name : String} (kind : f.kind = .polymorphic name)
    (segment : String) :
    (f.coercePolymorphic ctx build owner segment name raw).Ensures fun value =>
      ∀ e, value.held? = some e → f.Told ctx raw e := by
  unfold coercePolymorphic
  refine .bind (.ofExcept fun registry found => found) fun registry found => ?_
  have resolved := builtType?_known kind found raw
  cases raw with
  | mapping entries =>
    refine .within _ (.bind (.ofExcept fun type picked => picked) fun type picked => ?_)
    refine (made type entries).bind ?_
    rintro e rfl
    refine .pure ?_
    rintro d ⟨⟩
    exact told_of_typeKey (resolved.trans (congrArg (some <$> ·) picked))
  | entity e =>
    dsimp only
    split
    · refine .pure ?_
      rintro d ⟨⟩
      exact told_of_typeKey resolved
    · exact .fail _
  | _ => exact .fail _

end Told

theorem coerceRelated_told
    (makes : build.Makes (fun _ => True) (·.Each fun _ => True) fun _ => True) {type : TypeKey}
    (kind : f.kind = .related type) (segment : String) :
    (f.coerceRelated ctx build owner segment type raw).Ensures fun value =>
      ∀ e, value.held? = some e → f.Told ctx raw e := by
  have resolved : f.builtType? ctx raw = .ok (some type) := by rw [builtType?, kind]
  cases raw with
  | mapping entries =>
    refine .map (.within _ ((RelatedObject.ofRecord_ensures ctx makes trivial
      (fun _ _ _ _ => trivial) _).mono ?_))
    rintro r ⟨-, embedded⟩ e held
    obtain ⟨rfl, -⟩ := embedded e held
    exact told_of_typeKey resolved
  | related r =>
    rw [coerceRelated]
    split
    · exact .fail _
    · next embeds =>
      split
      · exact .within _ (.fail _)
      · refine .pure fun e held => ⟨type, resolved, ?_, by rintro ⟨⟩⟩
        -- it was made elsewhere, so only that its type is the same is known
        exact RelatedObject.isOf_of_embeds (by simpa using embeds) held
  | entity e =>
    rw [coerceRelated]
    split
    · next fits =>
      refine .pure ?_
      rintro d ⟨⟩
      exact ⟨type, resolved, fits, by rintro ⟨⟩⟩
    · exact .fail _
  | _ => exact .fail _

/-- Coercion comes to entities of the type told. -/
theorem coerceKind_told
    (makes : build.Makes (fun _ => True) (·.Each fun _ => True) fun _ => True) (segment : String) :
    (f.coerceKind ctx build owner segment raw).Ensures fun value =>
      ∀ e, value.held? = some e → f.Told ctx raw e := by
  have made : ∀ type m, (build type m).Ensures fun e => e.typeKey = type :=
    fun type m => (makes type trivial m fun _ _ _ _ => trivial).mono fun _ => And.left
  unfold coerceKind
  cases kind : f.kind with
  | leaf leaf =>
    dsimp only
    cases coerced : leaf.coerce raw with
    | ok value =>
      refine .pure fun e held => ?_
      rw [LeafKind.held?_of_holds (LeafKind.holds_of_coerce coerced)] at held
      cases held
    | error reason => exact .fail _
  | entity type => exact coerceEntity_told made kind segment
  | polymorphic name => exact coercePolymorphic_told made kind segment
  | related type => exact coerceRelated_told makes kind segment

/-- Where no type can be told, coercion fails for that reason, and before anything is drawn. -/
theorem coerceKind_untold {e : EntityError} (failed : f.builtType? ctx raw = .error e)
    (segment : String) (store : Store) :
    f.coerceKind ctx build owner segment raw store = (.error (e.reported segment), store) := by
  cases kind : f.kind with
  | polymorphic name =>
    rw [coerceKind, kind]
    dsimp only
    rw [coercePolymorphic]
    cases found : ctx.registry name with
    | error unknown =>
      rw [builtType?, kind] at failed
      dsimp only at failed
      rw [found] at failed
      cases failed
      rw [Context.reported_of_registry found]
      rfl
    | ok registry =>
      rw [builtType?_known kind found] at failed
      rw [Build.ofExcept, pure_bind]
      cases raw with
      | mapping entries =>
        dsimp only at failed ⊢
        cases picked : registry.pick entries with
        | ok type =>
          rw [picked] at failed
          cases failed
        | error unpicked =>
          rw [picked] at failed
          cases failed
          rw [Registry.reported_of_pick picked]
          exact Build.within_run_error (Build.bind_run_error rfl _) segment
      | _ => cases failed
  | _ =>
    -- the type of any other field is known beforehand, or there is none
    rw [builtType?, kind] at failed
    cases failed

/-! ## Single values -/

/-- What the field holds for one value: the value, or the list of it. -/
def holding (f : Field) (value : Value) : Value := if f.isMultiple then .list [value] else value

/-- The segment of a value that is supplied for the field by itself. -/
def ownSegment (f : Field) : String := if f.isMultiple then f.itemSegment 0 else f.name

/-- A value that is supplied by itself is coerced by itself. -/
theorem coerce_single (single : f.isMultiple → ∀ items, raw ≠ .list items) :
    f.coerce ctx build owner raw =
      f.holding <$> f.coerceSingle ctx build owner f.ownSegment raw := by
  unfold coerce holding ownSegment
  cases multiple : f.isMultiple with
  | true =>
    have items : itemsOf raw = [raw] := by
      cases raw with
      | list items => exact absurd rfl (single multiple items)
      | _ => rfl
    simp [items, coerceItems]
  | false => simp

/-- **The type told beforehand is the type built.** An entity that comes of coercing a single value,
as it is or inline in a related object, is of the type told. Where telling the type fails,
coercion fails with the same error, which bears the segment of the value if the tag is missing or
unknown, and draws nothing. -/
theorem builtType?_agrees (ctx : Context) (nesting : Nat) (owner : EntityType) (f : Field)
    (raw : Value) (single : f.isMultiple → ∀ items, raw ≠ .list items) :
    ((f.coerce ctx (ctx.buildNesting nesting) owner raw).Ensures fun stored =>
      ∃ value, stored = f.holding value ∧ ∀ e, value.held? = some e → f.Told ctx raw e) ∧
    ∀ e, f.builtType? ctx raw = .error e → ∀ store,
      f.coerce ctx (ctx.buildNesting nesting) owner raw store =
        (.error (e.reported f.ownSegment), store) := by
  rw [coerce_single single]
  constructor
  · refine .map (.mono ?_ fun value told => ⟨value, rfl, told⟩)
    refine (coerceKind_told (ctx.buildNesting_makes nesting) f.ownSegment).bind fun value told => ?_
    cases f.validate value with
    | ok => exact .pure told
    | error reason => exact .fail _
  · intro e failed store
    rw [map_eq_pure_bind]
    exact Build.bind_run_error (Build.bind_run_error (coerceKind_untold failed _ store) _) _

end Field

namespace Gallery

/-- A link is told and built of its tag, and an unknown tag in a list is reported at its index. -/
theorem attachment_told :
    (¬attachment.isMultiple ∧ attachment.list.isMultiple) ∧
    attachment.Told (after matching)
      (.mapping [("kind", .string "LinkAttachment"), ("url", .string "here")]) link ∧
    attachment.list.coerce (after matching) (after matching).build (types personKey)
        (.mapping [("kind", .string "Other")]) {} =
      (.error (.atPath ["attachment[0]"] (.unknownDiscriminator "attachments" "Other")), {}) := by
  refine ⟨by decide, ?_, ?_⟩
  · obtain ⟨value, stored, told⟩ := (Field.builtType?_agrees (after matching)
      (after matching).schema.defaultNesting (types personKey) attachment
      (.mapping [("kind", .string "LinkAttachment"), ("url", .string "here")])
      (fun _ _ => by rintro ⟨⟩)).1 {} (.entity link) [] {} rfl
    obtain rfl : Value.entity link = value := stored
    exact told link rfl
  · exact (Field.builtType?_agrees (after matching) (after matching).schema.defaultNesting
      (types personKey) attachment.list (.mapping [("kind", .string "Other")])
      (fun _ _ => by rintro ⟨⟩)).2 _ rfl {}

end Gallery

end Dossier
