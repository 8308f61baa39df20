import Dossier.Proofs.Reassignment
import Dossier.Proofs.Rebuilding

/-!
# Changing an entity and building it anew

Setting a property of an entity and clearing one come to the same as building an entity
of the properties it has, with that one changed: the same canonical form, or the same
error (`Entity.edits_agree`). What the other fields have stored is taken as it is when it
is built from, so only the field that was changed has anything to say, and it sees the
store that it sees when it is set.
-/

namespace Dossier

namespace Table

variable {α : Type}

/-- An entry that is put in is put in among those that are kept, if it is kept itself. -/
theorem filter_insert (keep : String → Bool) (t : Table α) (key : String) (value : α) :
    (t.insert key value).filter (fun entry => keep entry.1) =
      if keep key then insert (t.filter fun entry => keep entry.1) key value
      else t.filter fun entry => keep entry.1 := by
  induction t with
  | nil => by_cases kept : keep key = true <;> simp [insert, kept]
  | cons entry t ih =>
    obtain ⟨k, v⟩ := entry
    by_cases same : k = key
    · subst same
      by_cases kept : keep k = true <;> simp [insert, kept]
    · by_cases kept : keep key = true <;> by_cases front : keep k = true <;>
        simp_all [insert]

theorem filter_erase (keep : String → Bool) (t : Table α) (key : String) :
    (t.erase key).filter (fun entry => keep entry.1) =
      erase (t.filter fun entry => keep entry.1) key := by
  rw [erase, erase, List.filter_filter, List.filter_filter]
  exact List.filter_congr fun entry _ => Bool.and_comm _ _

end Table

/-! ## Trials of fields -/

namespace EntityType

variable {ctx : Context} {builders : Builders} {t : EntityType} {supplied : Mapping}
  {held : Field → Option Value} {fields : List Field} {store : Store}

/-- Fields that are filled with no more ado are all accepted. -/
theorem trials_of_pure (fill : ∀ g ∈ fields, ∀ assigned,
      g.fill ctx builders t assigned (supplied.get? g.name) = pure (held g)) (assigned : Mapping) :
    t.trials ctx builders supplied fields assigned store = .accepting held fields [] store := by
  have given : ∀ before g after, fields = before ++ g :: after →
      (g.fill ctx builders t (assigned ++ before.filterMap fun g => (held g).map (g.name, ·))
        (supplied.get? g.name)).Gives (fun _ => False) (held g) := by
    rintro before g after rfl
    rw [fill g (by simp)]
    exact .pure _
  obtain ⟨calls, run, none⟩ := trials_give held given store
  rw [run, List.eq_nil_iff_forall_not_mem.2 none]

/-- What the trials come to if one field alone has anything to say, by the outcome of that one. -/
theorem trials_of_one {f : Field} (names : (fields.map (·.name)).Nodup) (member : f ∈ fields)
    {fill : Build (Option Value)}
    (one : ∀ assigned, f.fill ctx builders t assigned (supplied.get? f.name) = fill)
    (others : ∀ g ∈ fields, g.name ≠ f.name → ∀ assigned,
      g.fill ctx builders t assigned (supplied.get? g.name) = pure (held g)) (assigned : Mapping) :
    (∀ calls after, fill store = (.ok (held f, calls), after) →
      t.trials ctx builders supplied fields assigned store =
        .accepting held fields calls after) ∧
    ∀ error after, fill store = (.error error, after) →
      (t.trials ctx builders supplied fields assigned store).errors = [error] := by
  induction fields generalizing assigned with
  | nil => exact absurd member List.not_mem_nil
  | cons g fields ih =>
    obtain ⟨apart, later⟩ := List.nodup_cons.1 names
    rcases List.mem_cons.1 member with rfl | among
    · -- the fields after it are filled with no more ado
      have rest := fun {store : Store} => @trials_of_pure ctx builders t supplied held fields store
        fun g among => others g (List.mem_cons_of_mem _ among) fun same =>
          apart (List.mem_map.2 ⟨g, among, same⟩)
      refine ⟨fun calls after run => ?_, fun error after run => ?_⟩
      · rw [trials, one, run]
        cases gave : held f <;> simp [rest, Trials.accepting, gave]
      · rw [trials, one, run]
        show error :: (t.trials ctx builders supplied fields assigned after).errors = [error]
        rw [rest, Trials.errors_accepting]
    · have other : g.name ≠ f.name := fun same => apart (List.mem_map.2 ⟨f, among, same.symm⟩)
      have tail := ih later among fun h inside => others h (List.mem_cons_of_mem _ inside)
      -- a field before it only hands on what it holds, and the store is the same
      have front := others g List.mem_cons_self other assigned
      refine ⟨fun calls after run => ?_, fun error after run => ?_⟩
      · rw [trials, front, Build.pure_run]
        cases gave : held g <;> simp [(tail _).1 calls after run, Trials.accepting, gave]
      · rw [trials, front, Build.pure_run]
        cases gave : held g <;> exact (tail _).2 error after run

theorem undeclared_insert (name : String) (value : Value) :
    t.undeclared (Table.insert supplied name value) =
      if t.isCustom name then Table.insert (t.undeclared supplied) name value
      else t.undeclared supplied :=
  Table.filter_insert t.isCustom supplied name value

theorem undeclared_erase (name : String) :
    t.undeclared (Table.erase supplied name) = Table.erase (t.undeclared supplied) name :=
  Table.filter_erase t.isCustom supplied name

/-- Without anything under its key there is nothing to say of the tag. -/
theorem tagErrors_of_absent
    (absent : ∀ tag, t.separateTag? = some tag → Table.get? supplied tag.key = none) :
    t.tagErrors supplied = [] := by
  unfold tagErrors
  cases found : t.separateTag? with
  | none => rfl
  | some tag => simp only [absent tag found]

/-- If one required field alone was offered nothing, it is the one that is missing. -/
theorem missingOf_eq_singleton {f : Field} (names : (fields.map (·.name)).Nodup)
    (member : f ∈ fields) (required : f.isRequired = true)
    (nothing : Table.get? supplied f.name = none)
    (offered : ∀ g ∈ fields, g.name ≠ f.name → g.isRequired →
      (Table.get? supplied g.name).isSome) :
    missingOf supplied fields = [f.name] := by
  induction fields with
  | nil => exact absurd member List.not_mem_nil
  | cons g fields ih =>
    obtain ⟨apart, later⟩ := List.nodup_cons.1 names
    have rest := fun h inside => offered h (List.mem_cons_of_mem g inside)
    rw [missingOf_cons]
    rcases List.mem_cons.1 member with rfl | among
    · have others : missingOf supplied fields = [] := missingOf_eq_nil fun g among =>
        rest g among fun same => apart (List.mem_map.2 ⟨g, among, same⟩)
      rw [if_pos ⟨required, nothing⟩, others, List.append_nil]
    · have other : g.name ≠ f.name := fun same => apart (List.mem_map.2 ⟨f, among, same.symm⟩)
      have given : ¬(g.isRequired ∧ Table.get? supplied g.name = none) :=
        fun ⟨required, nothing⟩ => by
          simpa [nothing] using offered g List.mem_cons_self other required
      rw [if_neg given, List.nil_append, ih later among rest]

end EntityType

/-! ## The properties of an entity -/

namespace Entity

/-- What an entity is built anew from: what its fields have stored, then its custom properties. -/
def properties (e : Entity) : Mapping := e.values ++ e.extras

/-- Every field with a default is set, and no custom property stands in the tag's place. -/
structure Filled (schema : Schema) (e : Entity) : Prop where
  defaulted : ∀ f ∈ (e.type schema).fields, f.default?.isSome → (Table.get? e.values f.name).isSome
  untagged : ∀ tag, (e.type schema).separateTag? = some tag → tag.key ∉ Table.keys e.extras

section

variable {ctx : Context} {e : Entity}

theorem Fits.get?_properties (h : e.Fits ctx) {f : Field}
    (declared : f ∈ (e.type ctx.schema).fields) :
    Table.get? e.properties f.name = Table.get? e.values f.name := by
  rw [properties, Table.get?_append, h.undeclared.get?_extras declared, Option.or_none]

/-- Under a name that is not declared nothing is stored. -/
theorem Fits.get?_values (h : e.Fits ctx) {name : String}
    (undeclared : (e.type ctx.schema).field? name = none) : Table.get? e.values name = none := by
  rw [Table.get?_eq_none_iff]
  intro member
  obtain ⟨⟨_, value⟩, there, rfl⟩ := List.mem_map.1 member
  obtain ⟨f, declared, same, -⟩ := h.stored _ value there
  exact EntityType.ne_of_undeclared undeclared declared same

/-- A field that is offered what it has stored is filled with that, and one that is offered nothing
since it has nothing stored stays empty. -/
theorem Fits.fill (h : e.Fits ctx) (filled : e.Filled ctx.schema) {f : Field}
    (declared : f ∈ (e.type ctx.schema).fields) {builders : Builders} {owner : EntityType}
    (assigned : Mapping) :
    f.fill ctx builders owner assigned (Table.get? e.values f.name) =
      pure (Table.get? e.values f.name) := by
  cases held : Table.get? e.values f.name with
  | some value =>
    rw [Field.fill, Field.coerce_of_stores (h.stores declared held), map_pure]
  | none =>
    have noDefault : f.default? = none := by
      by_contra given
      have set := filled.defaulted f declared (Option.isSome_iff_ne_none.2 given)
      rw [held] at set
      cases set
    rw [Field.fill, noDefault]

theorem Fits.undeclared_properties (h : e.Fits ctx) (filled : e.Filled ctx.schema) :
    (e.type ctx.schema).undeclared e.properties = e.extras :=
  h.undeclared_append filled.untagged

/-- Under the tag's key an entity has no property. -/
theorem Fits.get?_properties_tag (h : e.Fits ctx) (filled : e.Filled ctx.schema) {tag : TypeTag}
    (found : (e.type ctx.schema).separateTag? = some tag) :
    Table.get? e.properties tag.key = none := by
  rw [properties, Table.get?_append, h.get?_values (EntityType.field?_separateTag found),
    Table.get?_eq_none_iff.2 (filled.untagged tag found), Option.or_none]

/-- A mapping in which nothing is wrong with the tag, and which holds under the names of fields what
an entity does, but for one name. -/
structure Restates (schema : Schema) (e : Entity) (name : String) (m : Mapping) : Prop where
  tagged : (e.type schema).tagErrors m = []
  same : ∀ f ∈ (e.type schema).fields, f.name ≠ name →
    Table.get? m f.name = Table.get? e.values f.name

theorem Fits.restates_insert (h : e.Fits ctx) (filled : e.Filled ctx.schema) {name : String}
    (other : ∀ tag, (e.type ctx.schema).separateTag? = some tag → name ≠ tag.key) (value : Value) :
    e.Restates ctx.schema name (Table.insert e.properties name value) where
  tagged := EntityType.tagErrors_of_absent fun tag found => by
    rw [Table.get?_insert, if_neg (other tag found), h.get?_properties_tag filled found]
  same f declared apart := by
    rw [Table.get?_insert, if_neg (Ne.symm apart), h.get?_properties declared]

theorem Fits.restates_erase (h : e.Fits ctx) (filled : e.Filled ctx.schema) (name : String) :
    e.Restates ctx.schema name (Table.erase e.properties name) where
  tagged := EntityType.tagErrors_of_absent fun tag found => by
    rw [Table.get?_erase, h.get?_properties_tag filled found, ite_self]
  same f declared apart := by
    rw [Table.get?_erase, if_neg (Ne.symm apart), h.get?_properties declared]

namespace Restates

variable {name : String} {m : Mapping}

/-- The fields of other names have nothing to say. -/
theorem fill (restates : e.Restates ctx.schema name m) (h : e.Fits ctx)
    (filled : e.Filled ctx.schema) {f : Field} (declared : f ∈ (e.type ctx.schema).fields)
    (apart : f.name ≠ name) {builders : Builders} {owner : EntityType} (assigned : Mapping) :
    f.fill ctx builders owner assigned (Table.get? m f.name) =
      pure (Table.get? e.values f.name) := by
  rw [restates.same f declared apart]
  exact h.fill filled declared assigned

/-- Something is offered to the required fields if something is to the one of that name. -/
theorem offered (restates : e.Restates ctx.schema name m) (h : e.Fits ctx)
    (one : ∀ f ∈ (e.type ctx.schema).fields, f.name = name → f.isRequired →
      (Table.get? m f.name).isSome) {f : Field} (declared : f ∈ (e.type ctx.schema).fields)
    (required : f.isRequired = true) : (Table.get? m f.name).isSome := by
  by_cases same : f.name = name
  · exact one f declared same required
  · rw [restates.same f declared same]
    exact h.required f declared required

end Restates

/-- Entities of one type are written alike if they have the same fields and custom properties. -/
theorem canonical_congr {schema : Schema} {a b : Entity} (type : a.typeKey = b.typeKey)
    (fields : a.fields schema = b.fields schema) (extras : a.extras = b.extras) :
    a.canonical schema = b.canonical schema := by
  have types : a.type schema = b.type schema := congrArg schema.typeOf type
  rw [canonical_eq_ofEntries, canonical_eq_ofEntries, types, fields, extras]

/-- What building comes to that has one error to tell. -/
theorem ofMapping_of_complaint {type : TypeKey} {m : Mapping} {store : Store} {error : EntityError}
    (told : (ctx.typeOf type).complaints ctx m
      ((ctx.typeOf type).trials ctx ctx.builders m (ctx.typeOf type).fields [] store) =
        [error]) :
    ((ofMapping ctx type m).run.run store).1 = .error error := by
  rw [ofMapping_run]
  dsimp only
  rw [told]
  rfl

/-- Fields that are filled with what an entity holds make up an entity that is written like it. -/
theorem Fits.ofMapping_alike (h : e.Fits ctx) {m : Mapping} {store : Store}
    {calls : List HookCall} {after : Store}
    (tagged : (e.type ctx.schema).tagErrors m = [])
    (offered : ∀ f ∈ (e.type ctx.schema).fields, f.isRequired → (Table.get? m f.name).isSome)
    (extras : (e.type ctx.schema).undeclared m = e.extras)
    (trials : (e.type ctx.schema).trials ctx ctx.builders m (e.type ctx.schema).fields []
      store =
        .accepting (Table.get? e.values ·.name) (e.type ctx.schema).fields calls after) :
    ∃ built, ((ofMapping ctx e.typeKey m).run.run store).1 = .ok built ∧
      e.canonical ctx.schema = built.canonical ctx.schema := by
  have outcome := ofMapping_run ctx e.typeKey m store
  have type : ctx.typeOf e.typeKey = e.type ctx.schema := rfl
  simp only [type, trials, h.complaints_eq tagged offered extras, Trials.errors_accepting] at outcome
  refine ⟨_, outcome, canonical_congr rfl ?_ ?_⟩
  · -- looking up what each trial came to gives what the entity holds
    have tried := EntityType.trials_fields ctx ctx.builders (e.type ctx.schema) m
      (e.type ctx.schema).fields [] store
    rw [trials] at tried
    rw [EntityType.complete_ordered tried (Trials.errors_accepting ..), Trials.values_accepting]
    rfl
  · show e.extras = if ctx.keepsExtras (e.type ctx.schema) then
      (e.type ctx.schema).undeclared m else []
    rw [extras, h.keeps_extras]

/-- Two attempts at an entity agree if they come to entities that are written alike, or to the same
error. -/
def Agree (schema : Schema) : Except EntityError Entity → Except EntityError Entity → Prop
  | .ok a, .ok b => a.canonical schema = b.canonical schema
  | .error e, .error other => e = other
  | _, _ => False

/-! ## Setting -/

/-- Setting a declared field comes to what its value is coerced to. -/
theorem set_run {f : Field} (declared : f ∈ (e.type ctx.schema).fields) (raw : Value)
    (store : Store) :
    ((e.set ctx f.name raw).run.run store).1 =
      match f.coerce ctx ctx.build (e.type ctx.schema) raw store with
      | (.error error, _) => .error error
      | (.ok (value, _), _) => .ok { e with values := Table.insert e.values f.name value } := by
  rw [set, EntityType.field?_of_mem declared]
  rcases run : f.coerce ctx ctx.build (e.type ctx.schema) raw store with
    ⟨error | ⟨value, calls⟩, after⟩
  · have refused : e.setField ctx f raw store = (.error error, after) :=
      Build.bind_run_error run _
    exact congrArg Prod.fst (Build.finish_run_error refused)
  · obtain ⟨more, changed⟩ : ∃ more, e.setField ctx f raw store =
        (.ok ({ e with values := Table.insert e.values f.name value }, more), after) := by
      rw [setField, Build.bind_run_ok run]
      cases f.hook with
      | none => exact ⟨_, rfl⟩
      | some hook => exact ⟨_, rfl⟩
    exact congrArg Prod.fst (Build.finish_run_ok changed)

/-- A declared field that is set. It alone is coerced, with the store that is there to begin with,
since no other field draws from it. -/
theorem Fits.setField_agrees (h : e.Fits ctx) (filled : e.Filled ctx.schema) {f : Field}
    (declared : f ∈ (e.type ctx.schema).fields) (raw : Value) (store : Store) :
    Agree ctx.schema ((e.set ctx f.name raw).run.run store).1
      ((ofMapping ctx e.typeKey (Table.insert e.properties f.name raw)).run.run store).1 := by
  have restates := h.restates_insert filled
    (fun _ found => EntityType.ne_separateTag found declared) raw
  have offered : ∀ g ∈ (e.type ctx.schema).fields, g.isRequired →
      (Table.get? (Table.insert e.properties f.name raw) g.name).isSome := by
    refine fun g => restates.offered h fun g _ same _ => ?_
    rw [Table.get?_insert, if_pos same.symm]
    rfl
  have extras : (e.type ctx.schema).undeclared (Table.insert e.properties f.name raw) =
      e.extras := by
    rw [EntityType.undeclared_insert, EntityType.isCustom_of_mem declared,
      h.undeclared_properties filled]
    rfl
  -- filling the field is the coercion that setting does, whatever is assigned by then
  have one : ∀ assigned, f.fill ctx ctx.builders (e.type ctx.schema) assigned
      (Table.get? (Table.insert e.properties f.name raw) f.name) =
        (f.coerce ctx ctx.build (e.type ctx.schema) raw >>= fun value => pure (some value)) := by
    intro assigned
    rw [Table.get?_insert, if_pos rfl, Field.fill, Context.builders_supplied, map_eq_pure_bind]
  rw [set_run declared]
  rcases run : f.coerce ctx ctx.build (e.type ctx.schema) raw store with
    ⟨error | ⟨value, calls⟩, after⟩
  · have trials := (EntityType.trials_of_one (e.type ctx.schema).distinct declared one
      (fun g member apart => restates.fill h filled member apart) []).2 error after
      (Build.bind_run_error run _)
    have told := (h.complaints_eq restates.tagged offered extras _).trans trials
    rw [ofMapping_of_complaint told]
    rfl
  · let changed : Entity := { e with values := Table.insert e.values f.name value }
    have stores : f.Stores ctx value := Field.coerce_stores ctx _ _ f raw _ _ _ _ run
    have filledOne : (f.coerce ctx ctx.build (e.type ctx.schema) raw >>= fun value =>
        pure (some value)) store =
          (.ok (Table.get? changed.values f.name, calls), after) := by
      rw [Build.bind_run_ok run, Build.pure_run, Table.get?_insert, if_pos rfl]
      simp only [List.append_nil]
    -- the other fields take back what they hold, and nothing of that is drawn
    have others : ∀ g ∈ (e.type ctx.schema).fields, g.name ≠ f.name → ∀ assigned,
        g.fill ctx ctx.builders (e.type ctx.schema) assigned
          (Table.get? (Table.insert e.properties f.name raw) g.name) =
            pure (Table.get? changed.values g.name) := by
      intro g member apart assigned
      rw [restates.fill h filled member apart, Table.get?_insert, if_neg (Ne.symm apart)]
    have trials := (EntityType.trials_of_one (e.type ctx.schema).distinct declared one others []).1
      calls after filledOne
    obtain ⟨built, outcome, alike⟩ := (h.setField declared stores).ofMapping_alike
      restates.tagged offered extras trials
    rw [outcome]
    exact alike

/-- A custom property that is set, where they are kept, or refused. -/
theorem Fits.setExtra_agrees (h : e.Fits ctx) (filled : e.Filled ctx.schema) {name : String}
    (undeclared : (e.type ctx.schema).field? name = none)
    (other : ∀ tag, (e.type ctx.schema).separateTag? = some tag → name ≠ tag.key) (value : Value)
    (store : Store) :
    Agree ctx.schema ((e.set ctx name value).run.run store).1
      ((ofMapping ctx e.typeKey (Table.insert e.properties name value)).run.run store).1 := by
  have restates := h.restates_insert filled other value
  have apart : ∀ f ∈ (e.type ctx.schema).fields, f.name ≠ name := fun f declared =>
    EntityType.ne_of_undeclared undeclared declared
  have offered : ∀ f ∈ (e.type ctx.schema).fields, f.isRequired →
      (Table.get? (Table.insert e.properties name value) f.name).isSome :=
    fun f => restates.offered h fun f declared same => absurd same (apart f declared)
  have left : (e.type ctx.schema).undeclared (Table.insert e.properties name value) =
      Table.insert e.extras name value := by
    rw [EntityType.undeclared_insert, if_pos (EntityType.isCustom_iff.2 ⟨undeclared, other⟩),
      h.undeclared_properties filled]
  have trials : (e.type ctx.schema).trials ctx ctx.builders (Table.insert e.properties name value)
      (e.type ctx.schema).fields [] store =
        .accepting (Table.get? e.values ·.name) (e.type ctx.schema).fields [] store :=
    EntityType.trials_of_pure (fun f declared =>
      restates.fill h filled declared (apart f declared)) []
  by_cases keeps : ctx.keepsExtras (e.type ctx.schema) = true
  · have set : ((e.set ctx name value).run.run store).1 =
        .ok { e with extras := Table.insert e.extras name value } := by
      rw [Entity.set, undeclared]
      simp only [keeps, if_true]
      rfl
    obtain ⟨built, outcome, alike⟩ := (h.setExtra value undeclared keeps).ofMapping_alike
      restates.tagged offered left trials
    rw [set, outcome]
    exact alike
  · have refused : ((e.set ctx name value).run.run store).1 =
        .error (.unexpectedProperties (e.type ctx.schema).name [name]) := by
      rw [Entity.set, undeclared]
      simp only [keeps]
      rfl
    -- there are no custom properties, so this one is all that is unexpected
    rw [h.expected.resolve_left keeps, Table.insert] at left
    have told : (e.type ctx.schema).complaints ctx (Table.insert e.properties name value)
        (.accepting (Table.get? e.values ·.name) (e.type ctx.schema).fields [] store) =
          [.unexpectedProperties (e.type ctx.schema).name [name]] := by
      have surplus : ¬(ctx.keepsExtras (e.type ctx.schema) = true ∨
          ([(name, value)] : Mapping) = []) := by simp [keeps]
      rw [EntityType.complaints, restates.tagged, Trials.errors_accepting,
        EntityType.missingErrors, EntityType.missingOf_eq_nil offered,
        EntityType.unexpectedErrors, left, if_neg surplus]
      rfl
    rw [refused, ofMapping_of_complaint ((congrArg _ trials).trans told)]
    rfl

/-! ## Clearing -/

/-- Without the name of a field the custom properties are left. -/
theorem Fits.undeclared_erase_field (h : e.Fits ctx) (filled : e.Filled ctx.schema) {f : Field}
    (declared : f ∈ (e.type ctx.schema).fields) :
    (e.type ctx.schema).undeclared (Table.erase e.properties f.name) = e.extras := by
  have absent := Table.get?_eq_none_iff.1 (h.undeclared.get?_extras declared)
  rw [EntityType.undeclared_erase, h.undeclared_properties filled, Table.erase_of_absent absent]

/-- Without its name all fields are filled with what the entity holds once it is cleared. -/
theorem Fits.trials_erase (h : e.Fits ctx) (filled : e.Filled ctx.schema) {name : String}
    (noDefault : ∀ f ∈ (e.type ctx.schema).fields, f.name = name → f.default? = none)
    (store : Store) :
    (e.type ctx.schema).trials ctx ctx.builders (Table.erase e.properties name)
      (e.type ctx.schema).fields [] store =
        .accepting (Table.get? (Table.erase e.values name) ·.name) (e.type ctx.schema).fields []
          store := by
  refine EntityType.trials_of_pure (fun f declared assigned => ?_) []
  by_cases same : f.name = name
  · rw [Table.get?_erase, if_pos same.symm, Table.get?_erase, if_pos same.symm, Field.fill,
      noDefault f declared same]
  · rw [(h.restates_erase filled name).fill h filled declared same, Table.get?_erase,
      if_neg (Ne.symm same)]

/-- Clearing a required field is refused, and so is building without it. -/
theorem Fits.unset_required (h : e.Fits ctx) (filled : e.Filled ctx.schema) {f : Field}
    (declared : f ∈ (e.type ctx.schema).fields) (required : f.isRequired = true) (store : Store) :
    e.unset ctx.schema f.name =
      .error (.missingProperties (e.type ctx.schema).name [f.name]) ∧
    ((ofMapping ctx e.typeKey (Table.erase e.properties f.name)).run.run store).1 =
      .error (.missingProperties (e.type ctx.schema).name [f.name]) := by
  -- a required field has no default that could fill the gap
  have noDefault : ∀ g ∈ (e.type ctx.schema).fields, g.name = f.name → g.default? = none := by
    intro g member same
    rw [EntityType.eq_of_name_eq member declared same]
    exact Field.default?_of_isRequired required
  have restates := h.restates_erase filled f.name
  have nothing : Table.get? (Table.erase e.properties f.name) f.name = none := by
    rw [Table.get?_erase, if_pos rfl]
  have missing : EntityType.missingOf (Table.erase e.properties f.name) (e.type ctx.schema).fields =
      [f.name] :=
    EntityType.missingOf_eq_singleton (e.type ctx.schema).distinct declared required nothing
      fun g member apart required => by
        rw [restates.same g member apart]
        exact h.required g member required
  have expected : ctx.keepsExtras (e.type ctx.schema) = true ∨
      (e.type ctx.schema).undeclared (Table.erase e.properties f.name) = [] := by
    rw [h.undeclared_erase_field filled declared]
    exact h.expected
  refine ⟨?_, ofMapping_of_complaint ?_⟩
  · rw [unset, EntityType.field?_of_mem declared]
    exact if_pos required
  · show (e.type ctx.schema).complaints ctx _ ((e.type ctx.schema).trials ctx ctx.builders _
      (e.type ctx.schema).fields [] store) = _
    rw [h.trials_erase filled noDefault, EntityType.complaints,
      restates.tagged, Trials.errors_accepting, EntityType.missingErrors, missing,
      EntityType.unexpectedErrors, if_pos expected]
    rfl

theorem Fits.unset_optional (h : e.Fits ctx) (filled : e.Filled ctx.schema) {f : Field}
    (declared : f ∈ (e.type ctx.schema).fields) (optional : f.isRequired = false)
    (noDefault : f.default? = none) (store : Store) :
    Agree ctx.schema (Prod.snd <$> e.unset ctx.schema f.name)
      ((ofMapping ctx e.typeKey (Table.erase e.properties f.name)).run.run store).1 := by
  -- clearing it leaves the required fields alone
  have apart : ∀ g ∈ (e.type ctx.schema).fields, g.isRequired → g.name ≠ f.name := by
    intro g member required same
    rw [EntityType.eq_of_name_eq member declared same, optional] at required
    cases required
  have cleared : e.unset ctx.schema f.name =
      .ok (Table.get? e.values f.name, { e with values := Table.erase e.values f.name }) := by
    rw [unset, EntityType.field?_of_mem declared]
    simp [optional]
  have restates := h.restates_erase filled f.name
  have trials := h.trials_erase filled (fun g member same =>
    EntityType.eq_of_name_eq member declared same ▸ noDefault) store
  obtain ⟨built, outcome, alike⟩ := (h.eraseField apart).ofMapping_alike restates.tagged
    (fun g => restates.offered h fun g member same required =>
      absurd same (apart g member required))
    (h.undeclared_erase_field filled declared) trials
  rw [cleared, outcome]
  exact alike

theorem Fits.unset_extra (h : e.Fits ctx) (filled : e.Filled ctx.schema) {name : String}
    (undeclared : (e.type ctx.schema).field? name = none) (store : Store) :
    Agree ctx.schema (Prod.snd <$> e.unset ctx.schema name)
      ((ofMapping ctx e.typeKey (Table.erase e.properties name)).run.run store).1 := by
  have apart : ∀ f ∈ (e.type ctx.schema).fields, f.name ≠ name := fun f declared =>
    EntityType.ne_of_undeclared undeclared declared
  have cleared : e.unset ctx.schema name =
      .ok (Table.get? e.extras name, { e with extras := Table.erase e.extras name }) := by
    rw [unset, undeclared]
  have left : (e.type ctx.schema).undeclared (Table.erase e.properties name) =
      Table.erase e.extras name := by
    rw [EntityType.undeclared_erase, h.undeclared_properties filled]
  -- no field is of that name, so only the custom properties lose an entry
  have stored : Table.erase e.values name = e.values :=
    Table.erase_of_absent (Table.get?_eq_none_iff.1 (h.get?_values undeclared))
  have restates := h.restates_erase filled name
  have trials := h.trials_erase filled
    (fun f declared same => absurd same (apart f declared)) store
  rw [stored] at trials
  obtain ⟨built, outcome, alike⟩ := (h.eraseExtra name).ofMapping_alike restates.tagged
    (fun f => restates.offered h fun f declared same => absurd same (apart f declared)) left trials
  rw [cleared, outcome]
  exact alike

/-- A property that is cleared, if it is none that would be given its default. -/
theorem Fits.unset_agrees (h : e.Fits ctx) (filled : e.Filled ctx.schema) {name : String}
    (noDefault : ∀ f ∈ (e.type ctx.schema).fields, f.name = name → f.default? = none)
    (store : Store) :
    Agree ctx.schema (Prod.snd <$> e.unset ctx.schema name)
      ((ofMapping ctx e.typeKey (Table.erase e.properties name)).run.run store).1 := by
  cases found : (e.type ctx.schema).field? name with
  | none => exact h.unset_extra filled found store
  | some f =>
    obtain ⟨declared, rfl⟩ := EntityType.mem_of_field? found
    cases required : f.isRequired with
    | false => exact h.unset_optional filled declared required (noDefault f declared rfl) store
    | true =>
      obtain ⟨refused, told⟩ := h.unset_required filled declared required store
      rw [refused, told]
      rfl

end

/-- **Changing an entity agrees with building it anew.** For an entity that has come about in a
context, with every field that has a default set and no custom property under the tag's key: setting
a property, under any other name than that key, comes to what building comes to from its properties
with that one put in, and clearing one that would not be given its default to what building comes
to without it. Either both come to entities with the same canonical form or both to the same error,
which for a required field that is cleared is that it is missing. -/
theorem edits_agree {ctx : Context} {e : Entity} (reachable : Reachable ctx e)
    (filled : e.Filled ctx.schema) :
    (∀ name, (∀ tag, (e.type ctx.schema).separateTag? = some tag → name ≠ tag.key) →
      ∀ value store, Agree ctx.schema ((e.set ctx name value).run.run store).1
        ((ofMapping ctx e.typeKey (Table.insert e.properties name value)).run.run store).1) ∧
    (∀ name, (∀ f ∈ (e.type ctx.schema).fields, f.name = name → f.default? = none) →
      ∀ store, Agree ctx.schema (Prod.snd <$> e.unset ctx.schema name)
        ((ofMapping ctx e.typeKey (Table.erase e.properties name)).run.run store).1) ∧
    ∀ f ∈ (e.type ctx.schema).fields, f.isRequired → ∀ store,
      e.unset ctx.schema f.name =
        .error (.missingProperties (e.type ctx.schema).name [f.name]) ∧
      ((ofMapping ctx e.typeKey (Table.erase e.properties f.name)).run.run store).1 =
        .error (.missingProperties (e.type ctx.schema).name [f.name]) := by
  have fits := reachable.conforms.fits
  refine ⟨fun name other value store => ?_,
    fun name noDefault => fits.unset_agrees filled noDefault,
    fun f declared required => fits.unset_required filled declared required⟩
  cases found : (e.type ctx.schema).field? name with
  | some f =>
    obtain ⟨declared, rfl⟩ := EntityType.mem_of_field? found
    exact fits.setField_agrees filled declared value store
  | none => exact fits.setExtra_agrees filled found other value store

/-- Another object is related to the object in place of the one that is, and its related objects are
cleared. -/
theorem seenObject_edits :
    Agree Request.bareContext.schema
      ((Reachable.seenObject.set Request.bareContext "related_objects"
        (.mapping [("state", .string "new")])).run.run {}).1
      ((ofMapping Request.bareContext Catalog.objectKey
        (Table.insert Reachable.seenObject.properties "related_objects"
          (.mapping [("state", .string "new")]))).run.run {}).1 ∧
    Agree Request.bareContext.schema
      (Prod.snd <$> Reachable.seenObject.unset Request.bareContext.schema "related_objects")
      ((ofMapping Request.bareContext Catalog.objectKey
        (Table.erase Reachable.seenObject.properties "related_objects")).run.run {}).1 := by
  have filled : Reachable.seenObject.Filled Request.bareContext.schema :=
    ⟨by decide, fun _ _ => List.not_mem_nil⟩
  have agree := edits_agree Reachable.seenObject_made filled
  exact ⟨agree.1 "related_objects" (by rintro tag ⟨⟩) _ {},
    agree.2.1 "related_objects" (by decide) {}⟩

end Entity

end Dossier
