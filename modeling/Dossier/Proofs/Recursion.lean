import Dossier.Construction.Entity
import Dossier.Proofs.Building

/-!
# The recursion of building

Building a mapping is defined with two bounds, on the depth of mappings and on
the nesting of defaults. `Context.build_eq` takes the first bound away: an entity
is constructed with building itself as the builder of what was supplied, because
construction asks its builder only for mappings that are less deep. What is true
of every construction that it is true of the builders of is true of building
(`Context.build_induction`).
-/

namespace Dossier

namespace Value

theorem one_le_mappingDepth (entries : List (String × Value)) : 1 ≤ mappingDepth entries := by
  induction entries with
  | nil => exact Nat.le_refl 1
  | cons entry entries ih => exact Nat.le_trans ih (Nat.le_max_right _ _)

theorem depth_le_itemsDepth {items : List Value} {item : Value} (h : item ∈ items) :
    item.depth ≤ itemsDepth items := by
  induction items with
  | nil => exact absurd h List.not_mem_nil
  | cons head items ih =>
    rw [itemsDepth]
    rcases List.mem_cons.1 h with rfl | later
    · exact Nat.le_max_left _ _
    · exact Nat.le_trans (ih later) (Nat.le_max_right _ _)

theorem depth_lt_mappingDepth {entries : List (String × Value)} {key : String} {value : Value}
    (h : (key, value) ∈ entries) : value.depth < mappingDepth entries := by
  induction entries with
  | nil => exact absurd h List.not_mem_nil
  | cons head entries ih =>
    rw [mappingDepth]
    rcases List.mem_cons.1 h with rfl | later
    · exact Nat.le_max_left _ _
    · exact Nat.lt_of_lt_of_le (ih later) (Nat.le_max_right _ _)

end Value

theorem Mapping.depth_erase_le (m : Mapping) (key : String) :
    Mapping.depth (Table.erase m key) ≤ m.depth := by
  unfold Mapping.depth Table.erase
  induction m with
  | nil => exact Nat.le_refl _
  | cons entry m ih =>
    simp only [Value.mappingDepth]
    by_cases same : entry.1 = key
    · rw [List.filter_cons_of_neg (by simpa using same)]
      exact Nat.le_trans ih (Nat.le_max_right _ _)
    · rw [List.filter_cons_of_pos (by simpa using same), Value.mappingDepth]
      exact Nat.max_le.2 ⟨Nat.le_max_left _ _, Nat.le_trans ih (Nat.le_max_right _ _)⟩

/-! ## Builders that agree -/

/-- The two builders do the same with mappings up to a depth. -/
def Builder.AgreeTo (depth : Nat) (a b : Builder) : Prop :=
  ∀ type (m : Mapping), m.depth ≤ depth → a type m = b type m

section Agreement

variable {ctx : Context} {owner : EntityType} {f : Field} {a b : Builder} {depth : Nat}

theorem RelatedObject.ofRecord_congr (agree : Builder.AgreeTo depth a b) (type : TypeKey)
    {record : Mapping} (h : record.depth ≤ depth) (shown : Presentation) :
    ofRecord a type record shown = ofRecord b type record shown := by
  have payload : (payloadOf record).depth ≤ depth :=
    Nat.le_trans (Mapping.depth_erase_le _ _) (Nat.le_trans (Mapping.depth_erase_le _ _) h)
  unfold ofRecord
  simp only [agree type _ payload]

namespace Field

theorem coerceKind_congr (agree : Builder.AgreeTo depth a b) (segment : String) {raw : Value}
    (h : raw.depth ≤ depth) :
    f.coerceKind ctx a owner segment raw = f.coerceKind ctx b owner segment raw := by
  -- a mapping is the only value that is built, and it is no deeper than agreed
  have same : ∀ type {entries}, raw = .mapping entries → a type entries = b type entries := by
    rintro type entries rfl
    exact agree type entries (by rwa [Value.depth] at h)
  unfold coerceKind
  cases f.kind with
  | leaf kind => rfl
  | entity type =>
    cases raw with
    | mapping entries => simp only [coerceEntity, same type rfl]
    | _ => rfl
  | polymorphic name =>
    cases raw with
    | mapping entries => simp only [coercePolymorphic, same _ rfl]
    | _ => rfl
  | related type =>
    cases raw with
    | mapping entries =>
      have record : Mapping.depth entries ≤ depth := by rwa [Value.depth] at h
      simp only [coerceRelated, RelatedObject.ofRecord_congr agree type record]
    | _ => rfl

theorem coerceItems_congr (agree : Builder.AgreeTo depth a b) (index : Nat) {items : List Value}
    (h : ∀ item ∈ items, item.depth ≤ depth) :
    f.coerceItems ctx a owner index items = f.coerceItems ctx b owner index items := by
  induction items generalizing index with
  | nil => rfl
  | cons item items ih =>
    have head := h item List.mem_cons_self
    have later : ∀ other ∈ items, other.depth ≤ depth := by
      intro other member
      exact h other (List.mem_cons_of_mem _ member)
    simp only [coerceItems, coerceSingle, coerceKind_congr agree _ head, ih (index + 1) later]

theorem coerce_congr (agree : Builder.AgreeTo depth a b) {raw : Value} (h : raw.depth ≤ depth) :
    f.coerce ctx a owner raw = f.coerce ctx b owner raw := by
  have items : ∀ item ∈ itemsOf raw, item.depth ≤ depth := by
    intro item member
    cases raw with
    | list items =>
      rw [Value.depth] at h
      exact Nat.le_trans (Value.depth_le_itemsDepth member) h
    | _ =>
      simp only [itemsOf, List.mem_singleton] at member
      exact member ▸ h
  simp only [coerce, coerceSingle, coerceKind_congr agree _ h, coerceItems_congr agree 0 items]

end Field

/-- Builds go on alike after a build if they do for whatever it can give. -/
theorem Build.bind_congr {α β : Type} {x : Build α} {P : α → Prop} {f g : α → Build β}
    (h : x.Ensures P) (alike : ∀ value, P value → f value = g value) : (x >>= f) = (x >>= g) := by
  funext store
  rcases hx : x store with ⟨e | ⟨value, calls⟩, after⟩
  · rw [bind_run_error hx, bind_run_error hx]
  · rw [bind_run_ok hx, bind_run_ok hx, alike value (h _ _ _ _ hx)]

namespace EntityType

variable {t : EntityType} {defaulted : Builder}

theorem tryField_congr (agree : Builder.AgreeTo depth a b) {progress : Progress}
    (h : progress.rest.depth ≤ depth + 1) :
    t.tryField ctx ⟨a, defaulted⟩ progress f = t.tryField ctx ⟨b, defaulted⟩ progress f := by
  have fill : f.fill ctx ⟨a, defaulted⟩ t progress.values (progress.rest.get? f.name) =
      f.fill ctx ⟨b, defaulted⟩ t progress.values (progress.rest.get? f.name) := by
    cases found : progress.rest.get? f.name with
    | none => rfl
    | some raw =>
      have below := Value.depth_lt_mappingDepth (Table.mem_of_get? found)
      have fits : raw.depth ≤ depth := Nat.le_of_lt_succ (Nat.lt_of_lt_of_le below h)
      simp only [Field.fill, Field.coerce_congr agree fits]
  unfold tryField
  simp only [fill]

/-- Trying a field only takes from what was supplied. -/
theorem tryField_ensures_rest (builders : Builders) (progress : Progress) :
    (t.tryField ctx builders progress f).Ensures
      fun next => next.rest = progress.rest.erase f.name := by
  refine Build.Ensures.after ?_
  rintro (error | (_ | value))
  · exact .pure rfl
  · refine .pure ?_
    split <;> rfl
  · exact .pure rfl

theorem foldlM_tryField_congr (agree : Builder.AgreeTo depth a b) (fields : List Field)
    {progress : Progress} (h : progress.rest.depth ≤ depth + 1) :
    fields.foldlM (t.tryField ctx ⟨a, defaulted⟩) progress =
      fields.foldlM (t.tryField ctx ⟨b, defaulted⟩) progress := by
  induction fields generalizing progress with
  | nil => rfl
  | cons f fields ih =>
    rw [List.foldlM_cons, List.foldlM_cons, tryField_congr agree h]
    -- whatever trying the field came to, what is left is no deeper than before
    refine Build.bind_congr (tryField_ensures_rest _ progress) ?_
    intro next rest
    apply ih
    rw [rest]
    exact Nat.le_trans (Mapping.depth_erase_le _ _) h

theorem construct_congr (agree : Builder.AgreeTo depth a b) (type : TypeKey) {supplied : Mapping}
    (h : supplied.depth ≤ depth + 1) :
    construct ctx ⟨a, defaulted⟩ type supplied = construct ctx ⟨b, defaulted⟩ type supplied := by
  have rest : ((ctx.typeOf type).takeTag supplied).rest.depth ≤ depth + 1 := by
    unfold takeTag
    split
    · exact h
    · split
      · exact h
      · split <;> exact Nat.le_trans (Mapping.depth_erase_le _ _) h
  unfold construct
  simp only [foldlM_tryField_congr agree _ rest]

end EntityType

end Agreement

/-! ## Building without the bound on depth -/

namespace Context

theorem buildWithin_agree (ctx : Context) (defaulted : Builder) {m n : Nat} (le : m ≤ n) :
    Builder.AgreeTo m (ctx.buildWithin defaulted m) (ctx.buildWithin defaulted n) := by
  induction m generalizing n with
  | zero =>
    -- no mapping is that shallow
    intro type supplied h
    exact absurd (Value.one_le_mappingDepth supplied) (Nat.not_le.2 (Nat.lt_succ_of_le h))
  | succ m ih =>
    intro type supplied h
    obtain ⟨n, rfl⟩ : ∃ k, n = k + 1 := ⟨n - 1, by omega⟩
    exact EntityType.construct_congr (ih (Nat.le_of_succ_le_succ le)) type h

/-- The builders of a construction under a bound on the nesting of defaults. -/
def buildersAt (ctx : Context) : (nesting : Nat) → Builders
  | 0 =>
    { supplied := ctx.buildNesting 0
      defaulted := fun type _ => Build.fail (.endlessDefaults (ctx.typeOf type).name) }
  | nesting + 1 =>
    { supplied := ctx.buildNesting (nesting + 1), defaulted := ctx.buildNesting nesting }

/-- The builders of a construction: building itself for what was supplied, and building with
defaults nested less for what a default gave. -/
def builders (ctx : Context) : Builders := ctx.buildersAt ctx.schema.defaultNesting

@[simp] theorem builders_supplied (ctx : Context) : ctx.builders.supplied = ctx.build := by
  unfold builders build
  cases ctx.schema.defaultNesting <;> rfl

theorem buildNesting_run (ctx : Context) (nesting : Nat) (type : TypeKey) (supplied : Mapping) :
    ctx.buildNesting nesting type supplied =
      ctx.buildWithin (ctx.buildersAt nesting).defaulted supplied.depth type supplied := by
  cases nesting <;> rfl

theorem buildNesting_eq (ctx : Context) (nesting : Nat) (type : TypeKey) (supplied : Mapping) :
    ctx.buildNesting nesting type supplied =
      EntityType.construct ctx (ctx.buildersAt nesting) type supplied := by
  have same : (ctx.buildersAt nesting).supplied = ctx.buildNesting nesting := by
    cases nesting <;> rfl
  obtain ⟨depth, enough⟩ : ∃ depth, supplied.depth = depth + 1 :=
    ⟨supplied.depth - 1, (Nat.sub_add_cancel (Value.one_le_mappingDepth supplied)).symm⟩
  rw [buildNesting_run, enough]
  -- the mappings inside are less deep, so the bound that is left is enough for them
  refine EntityType.construct_congr (a := ctx.buildWithin _ depth)
    (b := (ctx.buildersAt nesting).supplied) ?_ type (Nat.le_of_eq enough)
  intro inner m fits
  rw [same, buildNesting_run, buildWithin_agree ctx _ fits inner m (Nat.le_refl _)]

/-- Building is construction with building itself as the builder of what was supplied. -/
theorem build_eq (ctx : Context) (type : TypeKey) (supplied : Mapping) :
    ctx.build type supplied = EntityType.construct ctx ctx.builders type supplied :=
  ctx.buildNesting_eq _ type supplied

section Induction

variable {ctx : Context} {P : TypeKey → Mapping → Build Entity → Prop}

/-- What a build that gives up has, and every construction whose builders have it, building has
under any bound on the nesting of defaults: by induction on that, and then on the depth. -/
theorem buildNesting_induction
    (giveUp : ∀ type supplied, P type supplied (.fail (.endlessDefaults (ctx.typeOf type).name)))
    (step : ∀ builders : Builders, (∀ type m, P type m (builders.supplied type m)) →
      (∀ type m, P type m (builders.defaulted type m)) →
      ∀ type m, P type m (EntityType.construct ctx builders type m))
    (nesting : Nat) (type : TypeKey) (supplied : Mapping) :
    P type supplied (ctx.buildNesting nesting type supplied) := by
  have within : ∀ defaulted : Builder, (∀ type m, P type m (defaulted type m)) →
      ∀ depth type m, P type m (ctx.buildWithin defaulted depth type m) := by
    intro defaulted ofDefaulted depth
    induction depth with
    | zero => exact giveUp
    | succ depth ih => exact step ⟨_, defaulted⟩ ih ofDefaulted
  induction nesting generalizing type supplied with
  | zero => exact within _ giveUp _ type supplied
  | succ nesting ih => exact within _ ih _ type supplied

/-- So building has it. -/
theorem build_induction
    (giveUp : ∀ type supplied, P type supplied (.fail (.endlessDefaults (ctx.typeOf type).name)))
    (step : ∀ builders : Builders, (∀ type m, P type m (builders.supplied type m)) →
      (∀ type m, P type m (builders.defaulted type m)) →
      ∀ type m, P type m (EntityType.construct ctx builders type m))
    (type : TypeKey) (supplied : Mapping) : P type supplied (ctx.build type supplied) :=
  buildNesting_induction giveUp step _ type supplied

/-- And so has the builder of what a default gives. -/
theorem defaulted_induction
    (giveUp : ∀ type supplied, P type supplied (.fail (.endlessDefaults (ctx.typeOf type).name)))
    (step : ∀ builders : Builders, (∀ type m, P type m (builders.supplied type m)) →
      (∀ type m, P type m (builders.defaulted type m)) →
      ∀ type m, P type m (EntityType.construct ctx builders type m))
    (type : TypeKey) (supplied : Mapping) :
    P type supplied (ctx.builders.defaulted type supplied) := by
  unfold builders
  cases ctx.schema.defaultNesting with
  | zero => exact giveUp type supplied
  | succ nesting => exact buildNesting_induction giveUp step nesting type supplied

end Induction

end Context

end Dossier
