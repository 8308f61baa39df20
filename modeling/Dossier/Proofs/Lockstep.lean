import Dossier.Proofs.Arranging
import Dossier.Proofs.InStep
import Dossier.Proofs.Prebuilt

/-!
# Construction in step

Construction from two mappings whose keys come in different orders is in step, if what was supplied
under each key is (`EntityType.construct_inStep`): fields are tried in the order of declaration, and
the order of arrival decides on nothing but the order of custom properties. Where nothing that is
built keeps any, the two come to the same, and leave the same store (`Value.Matching`).
-/

namespace Dossier

/-- Nothing of what was built keeps custom properties. -/
def Context.Closed (ctx : Context) (built : List Entity) : Prop :=
  ∀ e ∈ built, ctx.keepsExtras (e.type ctx.schema) = false

theorem Context.closed_append {ctx : Context} {before after : List Entity} :
    ctx.Closed (before ++ after) ↔ ctx.Closed before ∧ ctx.Closed after := List.forall_mem_append

/-- What a value that was supplied and another have come to, each from a store: alike values. They
are the same, and so are the stores, if those at the start were, whatever else went into them was
the same, and nothing built for the first keeps custom properties. -/
structure Value.Matching (ctx : Context) (same : Prop) (raw : Value) (store other : Store)
    (v w : Value) (after later : Store) : Prop where
  alike : v.Alike ctx w
  eq_of_closed : same → store = other → ctx.Closed (v.builtFrom ctx raw store).1 →
    v = w ∧ after = later

/-- From alike stores the builds come to matching values for what was supplied. -/
def Build.AlikeFrom (ctx : Context) (same : Prop) (raw : Value) (x y : Build Value) : Prop :=
  ∀ store other, store.Alike ctx other →
    x.InStep ctx store other (Value.Matching ctx same raw store other) y

theorem Build.AlikeFrom.alike {ctx : Context} {same : Prop} {raw : Value} {x y : Build Value}
    (h : Build.AlikeFrom ctx same raw x y) {store other : Store} (stores : store.Alike ctx other) :
    x.InStep ctx store other (fun v w _ _ => v.Alike ctx w) y :=
  (h store other stores).mono fun _ _ _ _ matching => matching.alike

/-- A build that comes to alike values from alike stores comes to matching ones, since from one and
the same store it does the same. -/
theorem Build.AlikeFrom.self {ctx : Context} {x : Build Value}
    (h : ∀ store other, store.Alike ctx other → x.InStep ctx store other
      (fun v w _ _ => v.Alike ctx w) x) (same : Prop) (raw : Value) :
    Build.AlikeFrom ctx same raw x x := by
  intro store other stores
  have sure : store = other → x store = x other := congrArg x
  refine ((h store other stores).exact sure).mono ?_
  exact fun v w after later ⟨alike, eq⟩ => ⟨alike, fun _ start _ => eq start⟩

/-- From alike stores the builder makes alike entities of one mapping. -/
def Builder.Regular (ctx : Context) (build : Builder) : Prop :=
  ∀ type m store other, store.Alike ctx other →
    (build type m).InStep ctx store other (fun d e _ _ => d.Alike ctx e) (build type m)

/-- The build of an entity from a mapping is in step with itself from alike stores, and what it
has built can be told from what it gives. -/
structure Build.Reliable (ctx : Context) (m : Mapping) (x : Build Entity) : Prop where
  accounts (store : Store) : x.Leaves store fun e => Accounts ctx.schema (e.builtFrom ctx m store)
  inStep (store other : Store) : store.Alike ctx other →
    x.InStep ctx store other (fun d e _ _ => d.Alike ctx e) x

def Builder.Reliable (ctx : Context) (build : Builder) : Prop :=
  ∀ type m, (build type m).Reliable ctx m

theorem Builder.Reliable.accountable {ctx : Context} {build : Builder} (h : build.Reliable ctx) :
    build.Accountable ctx := fun type m => (h type m).accounts

theorem Builder.Reliable.regular {ctx : Context} {build : Builder} (h : build.Reliable ctx) :
    build.Regular ctx := fun type m => (h type m).inStep

/-! ## Coercion -/

section Coercion

variable {ctx : Context} {type : TypeKey} {f : Field} {build : Builder} {owner : EntityType}
  {same : Prop} {v w : Value} {store other : Store}

theorem RelatedObject.ofRecord_regular (regular : build.Regular ctx) (type : TypeKey)
    (record : Mapping) (shown : Presentation) (stores : store.Alike ctx other) :
    (ofRecord build type record shown).InStep ctx store other
      (fun r s _ _ => (Value.related r).Alike ctx (.related s))
      (ofRecord build type record shown) := by
  have embedded : ∀ relationship : Option String,
      (do return inline (← build type (payloadOf record)) relationship :
        Build RelatedObject).InStep ctx store other
          (fun r s _ _ => (Value.related r).Alike ctx (.related s))
          (do return inline (← build type (payloadOf record)) relationship) := by
    intro relationship
    refine (regular type (payloadOf record) store other stores).bind ?_
    exact fun d e after later alike stores => .pure stores (.related alike)
  unfold ofRecord
  refine .ofExcept_bind stores fun relationship => .ofExcept_bind stores fun idref? => ?_
  cases idref? with
  | none =>
    dsimp only
    split
    · exact .fail stores (.refl _)
    · exact embedded relationship
  | some idref =>
    dsimp only
    split
    · exact .pure stores (.refl _)
    · exact embedded relationship

/-- Leaves are coerced to the same, or refused for the same reason. -/
theorem LeafKind.coerce_alike (h : v.Alike ctx w) (kind : LeafKind) :
    kind.coerce v = kind.coerce w := by
  cases h with
  | refl => rfl
  | _ => cases kind <;> rfl

namespace Field

theorem validate_alike (blind : ctx.OrderBlind) (declared : f ∈ (ctx.typeOf type).fields)
    (h : v.Alike ctx w) : f.validate v = f.validate w := by
  unfold validate
  cases found : f.validator with
  | none => rfl
  | some validator =>
    cases validator with
    | custom test =>
      show (test v).mapError _ = (test w).mapError _
      rw [blind.test declared found h]
    | range least most => simp only [Validator.check, h.integer?_eq]
    | _ => simp only [Validator.check, h.string?_eq]

theorem coerceEntity_alike (regular : build.Regular ctx) (segment : String) (named : TypeKey)
    (h : v.Alike ctx w) (stores : store.Alike ctx other) :
    (f.coerceEntity ctx build owner segment named v).InStep ctx store other
      (fun v w _ _ => v.Alike ctx w) (f.coerceEntity ctx build owner segment named w) := by
  have taken : ∀ {d e : Entity}, d.Alike ctx e →
      (f.coerceEntity ctx build owner segment named (.entity d)).InStep ctx store other
        (fun v w _ _ => v.Alike ctx w)
        (f.coerceEntity ctx build owner segment named (.entity e)) := by
    intro d e alike
    dsimp only [coerceEntity]
    rw [alike.isOf_eq]
    split
    · exact .pure stores alike
    · exact .fail stores (.refl _)
  cases h with
  | refl =>
    cases v with
    | mapping entries =>
      have built := (regular named entries store other stores).within segment
      exact built.map fun _ _ _ _ alike => alike
    | entity e => exact taken (.refl e)
    | _ => exact .fail stores (.refl _)
  | entity keys each custom => exact taken (.entity keys each custom)
  | _ => exact .fail stores (.refl _)

theorem coercePolymorphic_alike (regular : build.Regular ctx) (segment name : String)
    (h : v.Alike ctx w) (stores : store.Alike ctx other) :
    (f.coercePolymorphic ctx build owner segment name v).InStep ctx store other
      (fun v w _ _ => v.Alike ctx w) (f.coercePolymorphic ctx build owner segment name w) := by
  have taken : ∀ {d e : Entity}, d.Alike ctx e →
      (f.coercePolymorphic ctx build owner segment name (.entity d)).InStep ctx store other
        (fun v w _ _ => v.Alike ctx w)
        (f.coercePolymorphic ctx build owner segment name (.entity e)) := by
    intro d e alike
    refine .ofExcept_bind stores fun registry => ?_
    dsimp only
    rw [alike.type_eq]
    split
    · exact .pure stores alike
    · exact .fail stores (.refl _)
  cases h with
  | refl =>
    cases v with
    | mapping entries =>
      refine .ofExcept_bind stores fun registry => ?_
      -- the mapping is one and the same, so the type picked for it is
      refine .within segment (.ofExcept_bind stores fun picked => ?_)
      refine (regular picked entries store other stores).bind ?_
      exact fun d e after later alike stores => .pure stores alike
    | entity e => exact taken (.refl e)
    | _ => exact .ofExcept_bind stores fun _ => .fail stores (.refl _)
  | entity keys each custom => exact taken (.entity keys each custom)
  | _ => exact .ofExcept_bind stores fun _ => .fail stores (.refl _)

theorem coerceRelated_alike (regular : build.Regular ctx) (segment : String) (named : TypeKey)
    (h : v.Alike ctx w) (stores : store.Alike ctx other) :
    (f.coerceRelated ctx build owner segment named v).InStep ctx store other
      (fun v w _ _ => v.Alike ctx w) (f.coerceRelated ctx build owner segment named w) := by
  -- an entity is taken as it is, by its type alone
  have taken : ∀ {d e : Entity}, d.Alike ctx e →
      (f.coerceRelated ctx build owner segment named (.entity d)).InStep ctx store other
        (fun v w _ _ => v.Alike ctx w)
        (f.coerceRelated ctx build owner segment named (.entity e)) := by
    intro d e alike
    dsimp only [coerceRelated]
    rw [alike.isOf_eq]
    split
    · exact .pure stores (.related alike)
    · exact .fail stores (.refl _)
  cases h with
  | refl =>
    cases v with
    | mapping entries =>
      have built := RelatedObject.ofRecord_regular regular named entries
        (RelatedObject.presentationOf entries) stores
      exact (built.within segment).map fun _ _ _ _ alike => alike
    | entity e => exact taken (.refl e)
    | related r =>
      dsimp only [coerceRelated]
      split
      · exact .fail stores (.refl _)
      · split
        · exact .within segment (.fail stores (.refl _))
        · exact .pure stores (.refl _)
    | _ => exact .fail stores (.refl _)
  | entity keys each custom => exact taken (.entity keys each custom)
  | @related d e relationship inline =>
    have embeds : RelatedObject.embeds ctx.schema ⟨.inline d, relationship⟩ (ctx.typeOf named) =
        RelatedObject.embeds ctx.schema ⟨.inline e, relationship⟩ (ctx.typeOf named) :=
      Entity.Alike.isOf_eq inline ctx.schema _
    dsimp only [coerceRelated]
    rw [embeds]
    split
    · exact .fail stores (.refl _)
    · exact .pure stores (.related inline)
  | _ => exact .fail stores (.refl _)

/-- Alike values are coerced to alike ones or refused for the same reason. -/
theorem coerceKind_alike (regular : build.Regular ctx) (owner : EntityType) (f : Field)
    (segment : String) (h : v.Alike ctx w) (stores : store.Alike ctx other) :
    (f.coerceKind ctx build owner segment v).InStep ctx store other (fun v w _ _ => v.Alike ctx w)
      (f.coerceKind ctx build owner segment w) := by
  unfold coerceKind
  cases f.kind with
  | leaf kind =>
    dsimp only
    rw [kind.coerce_alike h]
    split
    · exact .pure stores (.refl _)
    · exact .fail stores (.refl _)
  | entity named => exact coerceEntity_alike regular segment named h stores
  | polymorphic name => exact coercePolymorphic_alike regular segment name h stores
  | related named => exact coerceRelated_alike regular segment named h stores

/-- Validation keeps builds in step. -/
theorem coerceSingle_inStep (blind : ctx.OrderBlind) (declared : f ∈ (ctx.typeOf type).fields)
    {segment : String} (h : Build.AlikeFrom ctx same v (f.coerceKind ctx build owner segment v)
      (f.coerceKind ctx build owner segment w)) :
    Build.AlikeFrom ctx same v (f.coerceSingle ctx build owner segment v)
      (f.coerceSingle ctx build owner segment w) := by
  intro store other stores
  refine (h store other stores).bind fun x y after later matching stores => ?_
  rw [validate_alike blind declared matching.alike]
  split
  · exact .pure stores matching
  · exact .fail stores (.refl _)

/-- The items of lists are coerced in step, whatever their index: by induction on the items, each
built in the store that the one before it has left. -/
theorem coerceItems_inStep (accountable : build.Accountable ctx) {items others : List Value}
    (each : List.Forall₂ (fun v w => ∀ segment, Build.AlikeFrom ctx same v
      (f.coerceSingle ctx build owner segment v) (f.coerceSingle ctx build owner segment w))
      items others) (index : Nat) (stores : store.Alike ctx other) :
    (f.coerceItems ctx build owner index items).InStep ctx store other
      (fun vs ws after later => List.Forall₂ (Value.Alike ctx) vs ws ∧
        (same → store = other → ctx.Closed (itemsBuiltFrom ctx vs items store).1 →
          vs = ws ∧ after = later))
      (f.coerceItems ctx build owner index others) := by
  induction each generalizing index store other with
  | nil => exact .pure stores ⟨.nil, fun _ start _ => ⟨rfl, start⟩⟩
  | @cons item _ items _ head _ ih =>
    have first := (head (f.itemSegment index) store other stores).and_leaves
      (coerceSingle_accounts accountable (f.itemSegment index) item store)
    refine first.bind fun v w between behind ⟨matching, _, accounts⟩ stores => ?_
    refine (ih (index + 1) stores).bind fun vs ws after later ⟨alike, eq⟩ stores => .pure stores ?_
    -- being the same is passed on from item to item through the store
    refine ⟨.cons matching.alike alike, fun holds start closed => ?_⟩
    rw [itemsBuiltFrom] at closed
    obtain rfl := accounts.store_eq
    obtain ⟨own, rest⟩ := Context.closed_append.1 closed
    obtain ⟨rfl, between⟩ := matching.eq_of_closed holds start own
    obtain ⟨rfl, last⟩ := eq holds between rest
    exact ⟨rfl, last⟩

theorem coerce_inStep (accountable : build.Accountable ctx)
    (single : ∀ segment, Build.AlikeFrom ctx same v (f.coerceSingle ctx build owner segment v)
      (f.coerceSingle ctx build owner segment w))
    (items : List.Forall₂ (fun v w => ∀ segment, Build.AlikeFrom ctx same v
      (f.coerceSingle ctx build owner segment v) (f.coerceSingle ctx build owner segment w))
      (itemsOf v) (itemsOf w)) :
    Build.AlikeFrom ctx same v (f.coerce ctx build owner v) (f.coerce ctx build owner w) := by
  intro store other stores
  unfold coerce
  have empty : (itemsOf v).isEmpty = (itemsOf w).isEmpty := by
    rw [Bool.eq_iff_iff, List.isEmpty_iff, List.isEmpty_iff, ← List.length_eq_zero_iff,
      items.length_eq, List.length_eq_zero_iff]
  rw [empty]
  split
  · split
    · exact .fail stores (.refl _)
    · refine (coerceItems_inStep accountable items 0 stores).map fun vs ws after later ⟨alike, eq⟩ =>
        ⟨?_, fun holds start closed => ?_⟩
      · obtain ⟨length, each⟩ := List.forall₂_iff_zip.1 alike
        exact .list length each
      · obtain ⟨rfl, last⟩ := eq holds start closed
        exact ⟨rfl, last⟩
  · exact single f.name store other stores

/-- Alike values, as a default may offer them, are coerced in step. -/
theorem coerceSingle_alike (blind : ctx.OrderBlind) (declared : f ∈ (ctx.typeOf type).fields)
    (regular : build.Regular ctx) (owner : EntityType) (segment : String) (h : v.Alike ctx w) :
    Build.AlikeFrom ctx False v (f.coerceSingle ctx build owner segment v)
      (f.coerceSingle ctx build owner segment w) := by
  refine coerceSingle_inStep blind declared fun store other stores => ?_
  refine (coerceKind_alike regular owner f segment h stores).mono ?_
  exact fun v w _ _ alike => ⟨alike, False.elim⟩

theorem coerce_alike (blind : ctx.OrderBlind) (declared : f ∈ (ctx.typeOf type).fields)
    (reliable : build.Reliable ctx) (owner : EntityType) (h : v.Alike ctx w) :
    Build.AlikeFrom ctx False v (f.coerce ctx build owner v) (f.coerce ctx build owner w) := by
  have single : ∀ {v w : Value}, v.Alike ctx w → ∀ segment, Build.AlikeFrom ctx False v
      (f.coerceSingle ctx build owner segment v) (f.coerceSingle ctx build owner segment w) :=
    fun h segment => coerceSingle_alike blind declared reliable.regular owner segment h
  exact coerce_inStep reliable.accountable (single h) (h.itemsOf.imp fun _ _ => single)

/-- One value is coerced in step with itself. -/
theorem coerceSingle_self (blind : ctx.OrderBlind) (declared : f ∈ (ctx.typeOf type).fields)
    (regular : build.Regular ctx) (owner : EntityType) (segment : String) (same : Prop)
    (raw : Value) :
    Build.AlikeFrom ctx same raw (f.coerceSingle ctx build owner segment raw)
      (f.coerceSingle ctx build owner segment raw) :=
  .self (fun _ _ => (coerceSingle_alike blind declared regular owner segment (.refl raw)).alike)
    same raw

theorem coerce_self (blind : ctx.OrderBlind) (declared : f ∈ (ctx.typeOf type).fields)
    (reliable : build.Reliable ctx) (owner : EntityType) (same : Prop) (raw : Value) :
    Build.AlikeFrom ctx same raw (f.coerce ctx build owner raw) (f.coerce ctx build owner raw) :=
  .self (fun _ _ => (coerce_alike blind declared reliable owner (.refl raw)).alike) same raw

end Field

end Coercion

/-! ## Filling fields -/

section Filling

variable {ctx : Context} {type : TypeKey} {f : Field} {builders : Builders}
  {assigned before : Mapping} {store other : Store}

/-- What a default has to give is alike after alike values in alike stores. -/
theorem Default.offer_alike (blind : ctx.OrderBlind) (declared : f ∈ (ctx.typeOf type).fields)
    {default : Default} (given : f.default? = some default) (alike : assigned.Alike ctx before)
    (stores : store.Alike ctx other) :
    Option.Rel (Value.Alike ctx) (default.offer ctx (ctx.typeOf type) assigned store).1
        (default.offer ctx (ctx.typeOf type) before other).1 ∧
      (default.offer ctx (ctx.typeOf type) assigned store).2.Alike ctx
        (default.offer ctx (ctx.typeOf type) before other).2 := by
  have self : ∀ raw? : Option Value, Option.Rel (Value.Alike ctx) raw? raw? := related_self .refl
  cases default with
  | fixed value => exact ⟨self _, stores⟩
  | generateId =>
    dsimp only [offer]
    rw [stores.supply]
    exact ⟨self _, stores.supplied _⟩
  | now =>
    dsimp only [offer]
    rw [stores.supply]
    exact ⟨self _, stores.supplied _⟩
  | sameAs field => exact ⟨alike.get? field, stores⟩
  | computed compute => exact ⟨blind.compute declared given alike _ _, stores⟩
  | deferred name => exact blind.answer declared given alike stores

theorem Field.fill_default (blind : ctx.OrderBlind) (declared : f ∈ (ctx.typeOf type).fields)
    (defaulted : builders.defaulted.Reliable ctx) (alike : assigned.Alike ctx before)
    (stores : store.Alike ctx other) :
    (f.fill ctx builders (ctx.typeOf type) assigned none).InStep ctx store other
      (fun v? w? _ _ => Option.Rel (Value.Alike ctx) v? w?)
      (f.fill ctx builders (ctx.typeOf type) before none) := by
  unfold fill
  dsimp only
  cases given : f.default? with
  | none => exact .pure stores .none
  | some default =>
    -- what the default gives may differ in order, and so be coerced to what does
    have asked : (default.rawValue ctx (ctx.typeOf type) assigned).InStep ctx store other
        (fun v? w? _ _ => Option.Rel (Value.Alike ctx) v? w?)
        (default.rawValue ctx (ctx.typeOf type) before) := by
      obtain ⟨offered, left⟩ := default.offer_alike blind declared given alike stores
      unfold Build.InStep
      rw [default.rawValue_run, default.rawValue_run]
      exact .given offered .nil left
    refine asked.bind fun raw? other? between behind offered stores => ?_
    cases offered with
    | none => exact .pure stores .none
    | some related =>
      have coerced := coerce_alike blind declared defaulted (ctx.typeOf type) related
      exact (coerced.alike stores).map fun _ _ _ _ alike => .some alike

/-- A field is filled in step, if what was supplied to it is coerced in step. -/
theorem Field.fill_inStep (blind : ctx.OrderBlind) (declared : f ∈ (ctx.typeOf type).fields)
    (defaulted : builders.defaulted.Reliable ctx) {raw? other? : Option Value}
    (supplied : Option.Rel (fun v w => Build.AlikeFrom ctx True v
      (f.coerce ctx builders.supplied (ctx.typeOf type) v)
      (f.coerce ctx builders.supplied (ctx.typeOf type) w)) raw? other?)
    (alike : assigned.Alike ctx before) (stores : store.Alike ctx other) :
    (f.fill ctx builders (ctx.typeOf type) assigned raw?).InStep ctx store other
      (fun v? w? after later => Option.Rel (Value.Alike ctx) v? w? ∧
        (assigned = before → store = other →
          (∀ v ∈ v?, ∀ raw between,
            f.offer ctx (ctx.typeOf type) assigned raw? store = (some raw, between) →
            ctx.Closed (v.builtFrom ctx raw between).1) →
          v? = w? ∧ after = later))
      (f.fill ctx builders (ctx.typeOf type) before other?) := by
  cases supplied with
  | @some v w coerced =>
    refine (coerced store other stores).map fun x y after later matching =>
      ⟨.some matching.alike, fun _ start closed => ?_⟩
    obtain ⟨rfl, last⟩ := matching.eq_of_closed trivial start (closed x rfl v store rfl)
    exact ⟨rfl, last⟩
  | none =>
    -- with the same values before it, in the same store, the default is asked the same
    have sure : assigned = before ∧ store = other →
        f.fill ctx builders (ctx.typeOf type) assigned none store =
          f.fill ctx builders (ctx.typeOf type) before none other := by
      intro same
      rw [same.1, same.2]
    refine ((fill_default blind declared defaulted alike stores).exact sure).mono ?_
    exact fun _ _ _ _ ⟨related, eq⟩ => ⟨related, fun same start _ => eq ⟨same, start⟩⟩

end Filling

/-! ## Construction -/

/-- What two mappings have to give to an entity of the type: related values for each of its fields,
the same under the key of its tag, and the same custom properties, if not in the same order. -/
structure EntityType.Corresponding (t : EntityType) (R : Field → Value → Value → Prop)
    (m other : Mapping) : Prop where
  declared : ∀ f ∈ t.fields, Option.Rel (R f) (m.get? f.name) (other.get? f.name)
  tag : ∀ tag, t.separateTag? = some tag → m.get? tag.key = other.get? tag.key
  undeclared : t.undeclared m = t.undeclared other ∨
    Table.Distinct (t.undeclared m) ∧ (t.undeclared m).Perm (t.undeclared other)

namespace EntityType

variable {ctx : Context} {builders : Builders} {t : EntityType} {m other : Mapping}
  {R : Field → Value → Value → Prop} {store left : Store}

theorem Corresponding.perm (h : t.Corresponding R m other) :
    (t.undeclared m).Perm (t.undeclared other) :=
  h.undeclared.elim (fun same => same ▸ .refl _) fun kept => kept.2

/-- Trials of the same fields that come to alike ends. -/
structure TriedAlike (ctx : Context) (t : EntityType) (m : Mapping) (fields : List Field)
    (assigned before : Mapping) (store left : Store) (trials others : Trials) : Prop where
  stores : trials.store.Alike ctx others.store
  calls : List.Forall₂ (HookCall.Alike ctx) trials.calls others.calls
  errors : List.Forall₂ EntityError.Alike trials.errors others.errors
  values : Mapping.Alike ctx trials.values others.values
  eq_of_closed : assigned = before → store = left → trials.errors = [] →
    ctx.Closed (entriesBuiltFrom ctx t m trials.values assigned fields store).1 →
    trials.values = others.values ∧ trials.store = others.store

/-- By induction on the fields: each sees the values of the earlier ones, which are alike. -/
theorem trials_inStep {type : TypeKey} (blind : ctx.OrderBlind)
    (supplied : builders.supplied.Accountable ctx) (defaulted : builders.defaulted.Reliable ctx)
    (coerced : ∀ f ∈ (ctx.typeOf type).fields, Option.Rel (fun v w => Build.AlikeFrom ctx True v
        (f.coerce ctx builders.supplied (ctx.typeOf type) v)
        (f.coerce ctx builders.supplied (ctx.typeOf type) w)) (m.get? f.name) (other.get? f.name))
    {fields : List Field} (declared : ∀ f ∈ fields, f ∈ (ctx.typeOf type).fields)
    (names : (fields.map (·.name)).Nodup) {assigned before : Mapping}
    (alike : assigned.Alike ctx before) (stores : store.Alike ctx left) :
    TriedAlike ctx (ctx.typeOf type) m fields assigned before store left
      ((ctx.typeOf type).trials ctx builders m fields assigned store)
      ((ctx.typeOf type).trials ctx builders other fields before left) := by
  induction fields generalizing assigned before store left with
  | nil => exact ⟨stores, .nil, .nil, .nil, fun _ start _ _ => ⟨rfl, start⟩⟩
  | cons f fields ih =>
    obtain ⟨apart, distinct⟩ := List.nodup_cons.1 names
    have member := declared f List.mem_cons_self
    have rest : ∀ g ∈ fields, g ∈ (ctx.typeOf type).fields := fun g among =>
      declared g (List.mem_cons_of_mem _ among)
    -- the values assigned so far are alike, and that is all a default can see
    have filled := Field.fill_inStep blind member defaulted (coerced f member) alike stores
    unfold Build.InStep at filled
    rcases first : f.fill ctx builders (ctx.typeOf type) assigned (m.get? f.name) store with
      ⟨d | ⟨v?, calls⟩, after⟩ <;>
    rcases second : f.fill ctx builders (ctx.typeOf type) before (other.get? f.name) left with
      ⟨e | ⟨w?, more⟩, later⟩ <;>
    rw [first, second] at filled
    · cases filled with
      | failed error stores =>
        have others := ih rest distinct alike stores
        simp only [trials, first, second]
        exact ⟨others.stores, others.calls, .cons error others.errors, others.values,
          fun _ _ quiet => absurd quiet (by simp [Trials.errors])⟩
    · cases filled
    · cases filled
    · cases filled with
      | given related called stores =>
        obtain ⟨related, eq⟩ := related
        cases related with
        | none =>
          obtain ⟨offered, -⟩ := Field.offer_of_unset first
          have others := ih rest distinct alike stores
          simp only [trials, first, second]
          refine ⟨others.stores, List.rel_append called others.calls, others.errors, others.values,
            fun same start quiet closed => ?_⟩
          -- nothing later is set under the name, so what was built is passed over
          have absent : f.name ∉ Table.keys
              ((ctx.typeOf type).trials ctx builders m fields assigned after).values := by
            intro there
            have among := Trials.keys_values_subset _ there
            rw [trials_names] at among
            exact apart among
          have passed := entriesBuiltFrom_pass offered absent fields
          obtain ⟨-, ends⟩ := eq same start (by simp)
          exact others.eq_of_closed same ends quiet (passed ▸ closed)
        | @some v w matching =>
          obtain ⟨raw, between, offered, coerced⟩ := Field.offer_of_set first
          have accountable : (builders.for (m.get? f.name)).Accountable ctx := by
            cases m.get? f.name with
            | some raw => exact supplied
            | none => exact defaulted.accountable
          have accounts := Field.coerce_accounts accountable raw between v calls after coerced
          have added : Mapping.Alike ctx (assigned ++ [(f.name, v)]) (before ++ [(f.name, w)]) :=
            Table.Rel.append alike (.cons ⟨rfl, matching⟩ .nil)
          have others := ih rest distinct added stores
          simp only [trials, first, second]
          refine ⟨others.stores, List.rel_append called others.calls, others.errors,
            .cons ⟨rfl, matching⟩ others.values, fun same start quiet closed => ?_⟩
          have set := entriesBuiltFrom_set offered v
            ((ctx.typeOf type).trials ctx builders m fields (assigned ++ [(f.name, v)]) after).values
            fields
          -- what is closed as a whole is closed for this field and for those after it
          obtain rfl := accounts.store_eq
          obtain ⟨own, nested⟩ := Context.closed_append.1 (set ▸ closed)
          obtain ⟨held, ends⟩ := eq same start fun x it raw' between' found => by
            rw [offered] at found
            obtain ⟨⟨rfl⟩, rfl⟩ := Prod.mk.inj found
            obtain rfl := Option.some.inj it
            exact own
          obtain rfl := Option.some.inj held
          obtain ⟨values, last⟩ := others.eq_of_closed (by rw [same]) ends quiet nested
          exact ⟨congrArg ((f.name, v) :: ·) values, last⟩

theorem unexpectedErrors_alike (h : t.Corresponding R m other) :
    List.Forall₂ EntityError.Alike (t.unexpectedErrors ctx m) (t.unexpectedErrors ctx other) := by
  have empty : t.undeclared m = [] ↔ t.undeclared other = [] := by
    rw [← List.length_eq_zero_iff, h.perm.length_eq, List.length_eq_zero_iff]
  unfold unexpectedErrors
  simp only [empty]
  split
  · exact .nil
  · exact .cons (.unexpected (h.perm.map Prod.fst)) .nil

/-- All complaints are alike if those of the fields are. -/
theorem complaints_alike (h : t.Corresponding R m other) {trials others : Trials}
    (errors : List.Forall₂ EntityError.Alike trials.errors others.errors) :
    List.Forall₂ EntityError.Alike (t.complaints ctx m trials)
      (t.complaints ctx other others) := by
  have self : ∀ errors : List EntityError, List.Forall₂ EntityError.Alike errors errors :=
    fun errors => List.forall₂_same.2 fun e _ => .refl e
  have missing : t.missingErrors m = t.missingErrors other := by
    unfold missingErrors
    rw [missingOf_congr fun f member => ?_]
    have given := h.declared f member
    generalize m.get? f.name = v?, other.get? f.name = w? at given
    cases given <;> rfl
  unfold complaints
  rw [tagErrors_congr h.tag, missing]
  exact List.rel_append (List.rel_append (List.rel_append (self _) errors) (self _))
    (unexpectedErrors_alike h)

/-- Alike entities have the same fields set, so the same hooks are called with each. -/
theorem hookCalls_alike {d e : Entity} (h : d.Alike ctx e) (t : EntityType) :
    List.Forall₂ (HookCall.Alike ctx) (t.hookCalls d) (t.hookCalls e) := by
  unfold hookCalls
  refine List.rel_filterMap (R := Eq) ?_ (List.forall₂_eq_eq_eq ▸ rfl)
  rintro f _ rfl
  dsimp only
  rw [h.isSet_eq]
  split
  · split
    · exact .some ⟨rfl, h⟩
    · exact .none
  · exact .none

/-- Entities are alike that are completed from alike values and the same custom properties. -/
theorem complete_alike {type : TypeKey} (h : (ctx.typeOf type).Corresponding R m other)
    {trials others : Trials} (values : Mapping.Alike ctx trials.values others.values) :
    (complete ctx type m trials).Alike ctx (complete ctx type other others) := by
  refine .intro values ?_
  split
  · next keeps => exact h.undeclared.imp_right fun kept => ⟨kept.1, kept.2, keeps⟩
  · exact .inl rfl

/-- **Construction does not depend on the order of keys.** If what was supplied under each key is
coerced in step, the entities are constructed in step. -/
theorem construct_inStep {type : TypeKey} (blind : ctx.OrderBlind)
    (supplied : builders.supplied.Accountable ctx) (defaulted : builders.defaulted.Reliable ctx)
    (h : (ctx.typeOf type).Corresponding (fun f v w => Build.AlikeFrom ctx True v
      (f.coerce ctx builders.supplied (ctx.typeOf type) v)
      (f.coerce ctx builders.supplied (ctx.typeOf type) w)) m other)
    (stores : store.Alike ctx left) :
    (construct ctx builders type m).InStep ctx store left
      (fun d e => Value.Matching ctx True (.mapping m) store left (.entity d) (.entity e))
      (construct ctx builders type other) := by
  have tried := trials_inStep blind supplied defaulted h.declared (fun _ => id)
    (ctx.typeOf type).distinct (.refl []) stores
  unfold Build.InStep
  rw [construct_run, construct_run]
  dsimp only
  generalize (ctx.typeOf type).trials ctx builders m (ctx.typeOf type).fields [] store = trials
    at tried ⊢
  generalize (ctx.typeOf type).trials ctx builders other (ctx.typeOf type).fields [] left = others
    at tried ⊢
  have combined : Option.Rel EntityError.Alike
      (EntityError.combine ((ctx.typeOf type).complaints ctx m trials))
      (EntityError.combine ((ctx.typeOf type).complaints ctx other others)) :=
    EntityError.Alike.combine (complaints_alike h tried.errors)
  cases told : EntityError.combine ((ctx.typeOf type).complaints ctx m trials) with
  | some e =>
    rw [told] at combined
    generalize EntityError.combine ((ctx.typeOf type).complaints ctx other others) = heard
      at combined
    cases combined with
    | some alike => exact .failed alike tried.stores
  | none =>
    rw [told] at combined
    generalize EntityError.combine ((ctx.typeOf type).complaints ctx other others) = heard
      at combined
    cases combined with
    | none =>
      have quiet : trials.errors = [] := by
        have none := EntityError.combine_eq_none told
        simp only [complaints, List.append_eq_nil_iff] at none
        exact none.1.1.2
      have alike := complete_alike h tried.values
      refine .given ⟨alike, fun _ start closed => ?_⟩
        (List.rel_append tried.calls (hookCalls_alike alike _)) tried.stores
      -- without custom properties the entity is its values
      have built : ctx.Closed ((complete ctx type m trials).builtFrom ctx m store).1 := closed
      rw [Entity.builtFrom_eq] at built
      obtain ⟨inside, own⟩ := Context.closed_append.1 built
      have shut : ctx.keepsExtras (ctx.typeOf type) = false := own _ (List.mem_singleton_self _)
      obtain ⟨values, last⟩ := tried.eq_of_closed rfl start quiet inside
      refine ⟨?_, last⟩
      simp only [complete, shut, values]
      rfl

end EntityType

namespace Context

variable {ctx : Context}

/-- Construction is reliable if its builders are: a mapping corresponds to itself. -/
theorem construct_reliable (blind : ctx.OrderBlind) (builders : Builders)
    (supplied : builders.supplied.Reliable ctx) (defaulted : builders.defaulted.Reliable ctx) :
    Builder.Reliable ctx (EntityType.construct ctx builders) := by
  intro type m
  refine ⟨EntityType.construct_accounts supplied.accountable defaulted.accountable type m, ?_⟩
  intro store other stores
  have itself : (ctx.typeOf type).Corresponding (fun f v w => Build.AlikeFrom ctx True v
      (f.coerce ctx builders.supplied (ctx.typeOf type) v)
      (f.coerce ctx builders.supplied (ctx.typeOf type) w)) m m := by
    refine ⟨fun f declared => ?_, fun _ _ => rfl, .inl rfl⟩
    cases m.get? f.name with
    | none => exact .none
    | some raw => exact .some (f.coerce_self blind declared supplied (ctx.typeOf type) True raw)
  have ends := EntityType.construct_inStep blind supplied.accountable defaulted itself stores
  exact ends.mono fun _ _ _ _ matching => matching.alike

/-- A build that gives up does so in any store. -/
theorem giveUp_reliable (type : TypeKey) (m : Mapping) :
    (Build.fail (.endlessDefaults (ctx.typeOf type).name)).Reliable ctx m :=
  ⟨fun _ => .fail _, fun _ _ stores => .fail stores (.refl _)⟩

theorem build_reliable (blind : ctx.OrderBlind) : ctx.build.Reliable ctx :=
  fun type m => build_induction (P := fun _ m x => x.Reliable ctx m) giveUp_reliable
    (construct_reliable blind) type m

theorem defaulted_reliable (blind : ctx.OrderBlind) : ctx.builders.defaulted.Reliable ctx :=
  fun type m => defaulted_induction (P := fun _ m x => x.Reliable ctx m) giveUp_reliable
    (construct_reliable blind) type m

end Context

end Dossier
