import Dossier.Proofs.Defaults
import Dossier.Proofs.Failure

/-!
# Reachable entities conform

Entities are made by construction and changed by setting and unsetting
properties, in a context whose registries only grow. Whatever comes of this,
in any order and whichever of the steps fail, conforms to the schema:
`conforms_of_reachable`.
-/

namespace Dossier

namespace Entity

/-- The entity after an attempt to set a property, which leaves it as it is if it fails. -/
def afterSet (ctx : Context) (e : Entity) (name : String) (value : Value) (store : Store) : Entity :=
  match (e.set ctx name value).run.run store with
  | (.ok changed, _) => changed
  | (.error _, _) => e

/-- The entity after an attempt to clear a property. -/
def afterUnset (schema : Schema) (e : Entity) (name : String) : Entity :=
  match e.unset schema name with
  | .ok (_, changed) => changed
  | .error _ => e

end Entity

/-- One registration, which may fail. -/
inductive Enrolment where
  | names (key : TypeKey)
  | type (key : TypeKey)
  | registry (name tagKey : String)
  | tagged (name tag : String) (key : TypeKey)

namespace Enrolment

def register : Enrolment → Registration Unit
  | names key => Registration.registerNames key
  | type key => Registration.registerType key
  | registry name tagKey => Registration.defineRegistry name tagKey
  | tagged name tag key => Registration.registerTagged name tag key

/-- The context after an attempt to register. -/
def after (enrolment : Enrolment) (ctx : Context) : Context := (enrolment.register.run.run ctx).2

theorem grows (enrolment : Enrolment) (ctx : Context) : ctx.GrowsTo (enrolment.after ctx) := by
  cases enrolment with
  | names key => exact Registration.registerNames_grows key ctx
  | type key => exact Registration.registerType_grows key ctx
  | registry name tagKey => exact Registration.defineRegistry_grows name tagKey ctx
  | tagged name tag key => exact Registration.registerTagged_grows name tag key ctx

end Enrolment

/-! ## What defaults introduce -/

/-- An entity that a default comes with: one in a constant, or one in what is computed or answered
that is in none of the values that the default was given. -/
def Default.Introduces (ctx : Context) : Default → Entity → Prop
  | fixed value, e => e ∈ value.entities
  | computed compute, e => ∃ input value, compute input = some value ∧ e ∈ value.entities ∧
    ∀ entry ∈ input.assigned, e ∉ entry.2.entities
  | deferred name, e => ∃ scope store value, (ctx.defaults name scope store).1 = some value ∧
    e ∈ value.entities ∧ ∀ entry ∈ scope.assigned, e ∉ entry.2.entities
  | _, _ => False

/-- An entity that a default of some field comes with. -/
def Context.Introduces (ctx : Context) (e : Entity) : Prop :=
  ∃ key, ∃ f ∈ (ctx.typeOf key).fields, ∃ default, f.default? = some default ∧
    default.Introduces ctx e

theorem Default.offers_of_introduces {Q : Entity → Prop} {ctx : Context} {default : Default}
    (introduced : ∀ e, default.Introduces ctx e → Q e) : default.Offers ctx (·.Each Q) := by
  refine offers_of_adds fun e adds => introduced e ?_
  cases default with
  | fixed value => exact adds
  | computed compute => exact adds
  | deferred name => exact adds
  | _ => exact adds

/-- The entities that come of constructing, setting and unsetting in a context. What is put into
one, by the caller or by a default of the schema, has come about the same way. -/
inductive Reachable : Context → Entity → Prop where
  /-- A successful construction. -/
  | made {ctx : Context} {type : TypeKey} {supplied : Mapping} {store after : Store} {e : Entity}
    (run : (Entity.ofMapping ctx type supplied).run.run store = (.ok e, after))
    (each : ∀ entry ∈ supplied, ∀ d ∈ entry.2.entities, Reachable ctx d)
    (introduced : ∀ d, d.Within e → ctx.Introduces d → Reachable ctx d) : Reachable ctx e
  /-- A successful reading of a record with an entity inline. -/
  | embedded {ctx : Context} {type : TypeKey} {record : Mapping} {shown : Presentation}
    {store after : Store} {e : Entity} {r : RelatedObject}
    (run : (RelatedObject.ofMappingAs ctx type record shown).run.run store = (.ok r, after))
    (inline : r.embedded? = some e)
    (each : ∀ entry ∈ record, ∀ d ∈ entry.2.entities, Reachable ctx d)
    (introduced : ∀ d, d.Within e → ctx.Introduces d → Reachable ctx d) : Reachable ctx e
  /-- An attempt to set a property. -/
  | set {ctx : Context} {e : Entity} (before : Reachable ctx e) (name : String) {value : Value}
    (each : ∀ d ∈ value.entities, Reachable ctx d) (store : Store)
    (introduced : ∀ d, d.Within (e.afterSet ctx name value store) → ctx.Introduces d →
      Reachable ctx d) : Reachable ctx (e.afterSet ctx name value store)
  /-- An attempt to clear one. -/
  | unset {ctx : Context} {e : Entity} (before : Reachable ctx e) (name : String) :
    Reachable ctx (e.afterUnset ctx.schema name)
  /-- An entity taken out of another. -/
  | nested {ctx : Context} {e d : Entity} (outer : Reachable ctx e) (inside : d ∈ e.nested) :
    Reachable ctx d
  /-- An attempt to register a type or a registry. -/
  | enrolled {ctx : Context} {e : Entity} (before : Reachable ctx e) (enrolment : Enrolment) :
    Reachable (enrolment.after ctx) e

/-- A property that an entity that fits has if those inside have it. -/
def Context.Hereditary (ctx : Context) (Q : Entity → Prop) : Prop :=
  ∀ e : Entity, e.Fits ctx → (∀ d ∈ e.nested, Q d) → Q e

namespace Context

variable {ctx : Context} {Q : Entity → Prop}

/-- What is built fits, and has inside only what has a property that is hereditary. -/
theorem build_fits (hereditary : ctx.Hereditary Q)
    (introduced : ∀ e, ctx.Introduces e → Q e) (type : TypeKey) {supplied : Mapping}
    (each : supplied.All (·.Each Q)) :
    (ctx.build type supplied).Ensures fun e =>
      e.typeKey = type ∧ e.Fits ctx ∧ ∀ d ∈ e.nested, Q d := by
  refine build_induction (P := fun type m x => m.All (·.Each Q) → x.Ensures fun e =>
    e.typeKey = type ∧ e.Fits ctx ∧ ∀ d ∈ e.nested, Q d) (fun _ _ _ => .fail _) ?_
    type supplied each
  intro builders bySupplied byDefaulted type m each
  have makes : builders.supplied.Makes (fun _ => True) (·.Each Q) Q := fun type _ m each =>
    (bySupplied type m each).mono fun e ⟨same, fits, inside⟩ => ⟨same, hereditary e fits inside⟩
  have defaulted : builders.defaulted.Makes (fun _ => True) (·.Each Q) Q := fun type _ m each =>
    (byDefaulted type m each).mono fun e ⟨same, fits, inside⟩ => ⟨same, hereditary e fits inside⟩
  refine (EntityType.construct_fits (Value.carries_each Q).conveys makes defaulted
    (fun f _ => f.asks_any ctx) (fun f member default given => ?_) each).mono ?_
  · exact Default.offers_of_introduces fun e inside =>
      introduced e ⟨type, f, member, default, given, inside⟩
  · rintro e ⟨same, fits, inside⟩
    exact ⟨same, fits, Entity.forall_nested.2 inside⟩

theorem build_makes (hereditary : ctx.Hereditary Q)
    (introduced : ∀ e, ctx.Introduces e → Q e) :
    ctx.build.Makes (fun _ => True) (·.Each Q) Q :=
  fun type _ _ each => (build_fits hereditary introduced type each).mono
    fun e ⟨same, fits, inside⟩ => ⟨same, hereditary e fits inside⟩

end Context

/-! ## Steps keep conformance -/

/-- An entity that conforms, or is introduced by a default, or conforms if those within it that are
introduced by defaults do. -/
def Context.Sound (ctx : Context) (e : Entity) : Prop :=
  ctx.Introduces e ∨
    ((∀ d, d.Within e → ctx.Introduces d → d.Conforms ctx) → e.Conforms ctx)

namespace Context

variable {ctx : Context} {e : Entity}

/-- An entity that fits around sound ones conforms, if what defaults have introduced does. -/
theorem conforms_of_sound (fits : e.Fits ctx) (inside : ∀ d ∈ e.nested, ctx.Sound d)
    (introduced : ∀ d, d.Within e → ctx.Introduces d → d.Conforms ctx) :
    e.Conforms ctx := by
  refine .intro fits fun d member => ?_
  rcases inside d member with given | conforms
  · exact introduced d (.direct member) given
  · exact conforms fun n within given => introduced n (.deeper member within) given

theorem sound_hereditary (ctx : Context) : ctx.Hereditary ctx.Sound :=
  fun _ fits inside => .inr (conforms_of_sound fits inside)

theorem sound_introduced (ctx : Context) (e : Entity) (h : ctx.Introduces e) :
    ctx.Sound e := .inl h

theorem sound_of_conforms (h : e.Conforms ctx) : ctx.Sound e := .inr fun _ => h

end Context

namespace Entity

variable {ctx : Context} {e : Entity}

theorem ofMapping_conforms {type : TypeKey} {supplied : Mapping} {store after : Store}
    (run : (ofMapping ctx type supplied).run.run store = (.ok e, after))
    (each : supplied.All (·.Each (·.Conforms ctx)))
    (introduced : ∀ d, d.Within e → ctx.Introduces d → d.Conforms ctx) :
    e.Conforms ctx := by
  have sound : supplied.All (·.Each ctx.Sound) := by
    intro entry member d inside
    exact ctx.sound_of_conforms (each entry member d inside)
  obtain ⟨-, fits, inside⟩ := (Context.build_fits ctx.sound_hereditary ctx.sound_introduced type
    sound).of_finish run
  exact Context.conforms_of_sound fits inside introduced

theorem ofMappingAs_conforms {type : TypeKey} {record : Mapping} {shown : Presentation}
    {store after : Store} {r : RelatedObject}
    (run : (RelatedObject.ofMappingAs ctx type record shown).run.run store = (.ok r, after))
    (inline : r.embedded? = some e) (each : record.All (·.Each (·.Conforms ctx)))
    (introduced : ∀ d, d.Within e → ctx.Introduces d → d.Conforms ctx) :
    e.Conforms ctx := by
  have sound : record.All (·.Each ctx.Sound) := by
    intro entry member d inside
    exact Context.sound_of_conforms (each entry member d inside)
  have makes : ctx.build.Makes (fun _ => True) (·.Each ctx.Sound) fun e =>
      e.Fits ctx ∧ ∀ d ∈ e.nested, ctx.Sound d :=
    fun type _ m => Context.build_fits ctx.sound_hereditary ctx.sound_introduced type
  have ensures : (RelatedObject.ofRecord ctx.build type record shown).Ensures fun r =>
      r.Refers ctx.schema (ctx.typeOf type) ∧ _ :=
    RelatedObject.ofRecord_ensures ctx makes trivial sound shown
  obtain ⟨-, fits, inside⟩ := (ensures.of_finish run).2 e inline
  exact Context.conforms_of_sound fits inside introduced

theorem set_conforms (h : e.Conforms ctx) {name : String} {value : Value}
    (each : value.Each (·.Conforms ctx)) {store after : Store} {changed : Entity}
    (run : (e.set ctx name value).run.run store = (.ok changed, after))
    (introduced : ∀ d, d.Within changed → ctx.Introduces d → d.Conforms ctx) :
    changed.Conforms ctx := by
  -- what is set conforms, so a builder that is given it makes what conforms
  have sound : ∀ v : Value, v.Each (·.Conforms ctx) → v.Each ctx.Sound := by
    intro v each d inside
    exact Context.sound_of_conforms (each d inside)
  obtain ⟨values, extras⟩ := forall_nested.1 fun d member => h.of_nested member
  unfold set at run
  cases declared : (e.type ctx.schema).field? name with
  | some f =>
    simp only [declared] at run
    have makes := ctx.build_makes ctx.sound_hereditary ctx.sound_introduced
    have ensures := setField_ensures (e := e) (Value.carries_each ctx.Sound).conveys makes
      (f.asks_any ctx) (sound value each)
    obtain ⟨held, stores, heldEach, rfl⟩ := ensures.of_finish run
    refine Context.conforms_of_sound (h.fits.setField (EntityType.mem_of_field? declared).1 stores)
      (forall_nested.2 ⟨?_, extras.mono sound⟩) introduced
    exact (values.mono sound).insert f.name heldEach
  | none =>
    simp only [declared] at run
    split at run
    · next keeps =>
      obtain rfl := Except.ok.inj (Prod.mk.inj run).1
      refine Context.conforms_of_sound (h.fits.setExtra value declared keeps)
        (forall_nested.2 ⟨values.mono sound, ?_⟩) introduced
      exact (extras.mono sound).insert name (sound value each)
    · exact absurd (Prod.mk.inj run).1 (by simp)

theorem afterSet_conforms (h : e.Conforms ctx) (name : String) {value : Value}
    (each : value.Each (·.Conforms ctx)) (store : Store)
    (introduced : ∀ d, d.Within (e.afterSet ctx name value store) → ctx.Introduces d →
      d.Conforms ctx) : (e.afterSet ctx name value store).Conforms ctx := by
  unfold afterSet at introduced ⊢
  split
  · next changed after run =>
    rw [run] at introduced
    exact set_conforms h each run introduced
  · exact h

theorem unset_conforms (h : e.Conforms ctx) {name : String} {cleared : Option Value}
    {changed : Entity} (run : e.unset ctx.schema name = .ok (cleared, changed)) :
    changed.Conforms ctx := by
  obtain ⟨values, extras⟩ := forall_nested.1 fun d member => h.of_nested member
  unfold unset at run
  cases declared : (e.type ctx.schema).field? name with
  | some f =>
    simp only [declared] at run
    split at run
    · cases run
    · next optional =>
      -- no required field has the name, or it could not have been cleared
      cases run
      refine .intro (h.fits.eraseField fun g member required same => optional ?_)
        (forall_nested.2 ⟨values.erase name, extras⟩)
      rw [← same, EntityType.field?_of_mem member] at declared
      exact Option.some.inj declared ▸ required
  | none =>
    simp only [declared] at run
    cases run
    exact .intro (h.fits.eraseExtra name) (forall_nested.2 ⟨values, extras.erase name⟩)

theorem afterUnset_conforms (h : e.Conforms ctx) (name : String) :
    (e.afterUnset ctx.schema name).Conforms ctx := by
  unfold afterUnset
  split
  · next cleared changed run => exact unset_conforms h run
  · exact h

end Entity

/-- By induction on how the entity has come about: what a step starts from conforms, and so does
what it comes to. -/
theorem Reachable.conforms {ctx : Context} {e : Entity} (h : Reachable ctx e) : e.Conforms ctx := by
  induction h with
  | made run _ _ each introduced => exact Entity.ofMapping_conforms run each introduced
  | embedded run inline _ _ each introduced =>
    exact Entity.ofMappingAs_conforms run inline each introduced
  | set _ name _ store _ before each introduced =>
    exact Entity.afterSet_conforms before name each store introduced
  | unset _ name before => exact Entity.afterUnset_conforms before name
  | nested _ inside outer => exact outer.of_nested inside
  | enrolled _ enrolment before => exact (enrolment.grows _).conforms before

/-- **Reachable entities conform**, whatever was asked for on the way and whether it was done. -/
theorem conforms_of_reachable {ctx : Context} {e : Entity} (h : Reachable ctx e) :
    e.Conforms ctx :=
  h.conforms

theorem Default.not_introduces {ctx : Context} {known : List String} {default : Default}
    (sure : default.isSure known = true) (e : Entity) : ¬default.Introduces ctx e := by
  cases default with
  | fixed value => cases value with
    | string s => exact List.not_mem_nil
    | _ => exact absurd sure (by simp [isSure])
  | computed compute => exact absurd sure (by simp [isSure])
  | deferred name => exact absurd sure (by simp [isSure])
  | _ => exact id

theorem Catalog.typeOf_schema (extension : TypeKey → EntityType) (key : TypeKey) :
    (schema extension).typeOf key ∈ types.map (·.2) ∨
      (schema extension).typeOf key = extension key := by
  unfold schema
  dsimp only
  cases found : types.lookup key with
  | none => exact .inr rfl
  | some t =>
    obtain ⟨before, later, whole, -⟩ := List.lookup_eq_some_iff.1 found
    exact .inl (List.mem_map.2 ⟨(key, t), by simp [whole], rfl⟩)

/-- No default of the catalog comes with an entity. -/
theorem Catalog.not_introduces {ctx : Context} {extension : TypeKey → EntityType}
    (same : ctx.schema = schema extension)
    (sure : ∀ key, EntityType.sureDefaults [] (extension key).fields = true) (e : Entity) :
    ¬ctx.Introduces e := by
  rintro ⟨key, f, declared, default, given, inside⟩
  rw [Context.typeOf, same] at declared
  have catalog : ∀ t ∈ types.map (·.2), EntityType.sureDefaults [] t.fields = true := by decide
  have all : EntityType.sureDefaults [] ((schema extension).typeOf key).fields = true := by
    rcases typeOf_schema extension key with known | extended
    · exact catalog _ known
    · exact extended ▸ sure key
  obtain ⟨known, sure⟩ := EntityType.isSure_of_mem all declared given
  exact default.not_introduces sure e inside

namespace Reachable

/-- An object with another inside. -/
def seenObject : Entity where
  typeKey := Catalog.objectKey
  values :=
    [("id", .string "object--00000000-0000-4000-8000-000000000001"),
      ("related_objects", .list [.related (.inline {
        typeKey := Catalog.objectKey
        values :=
          [("id", .string "object--00000000-0000-4000-8000-000000000002"),
            ("state", .string "seen")]
        extras := [] } none)])]
  extras := []

theorem introduces_nothing (e : Entity) : ¬Request.bareContext.Introduces e :=
  Catalog.not_introduces rfl (fun _ => by decide) e

theorem seenObject_made : Reachable Request.bareContext seenObject := by
  obtain ⟨after, run⟩ : ∃ after, (Entity.ofMapping Request.bareContext Catalog.objectKey
      [("related_objects", .list [.mapping [("state", .string "seen")]])]).run.run {} =
        (.ok seenObject, after) := ⟨_, rfl⟩
  refine .made run ?_ fun d _ given => absurd given (introduces_nothing d)
  simp [Value.entities, Value.itemsEntities, Value.entriesEntities]

/-- The object once a registry has been made, and once its state has been set to something that is
no state, which fails. -/
theorem seenObject_conforms :
    (seenObject.afterSet ((Enrolment.registry "extra" "kind").after Request.bareContext) "state"
      (.bool true) {}).Conforms ((Enrolment.registry "extra" "kind").after Request.bareContext) :=
  conforms_of_reachable <| .set (seenObject_made.enrolled _) "state"
    (List.forall_mem_nil _) {}
    fun d _ given => absurd given (introduces_nothing d)

end Reachable

end Dossier
