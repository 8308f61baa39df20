import Dossier.Proofs.ErrorPaths
import Dossier.Proofs.Plain

/-!
# Indices of items in documents

A document is read as a value before anything is built, and nulls are no items of that value. So the
index that an error is told with counts the items that are no nulls (`DocumentStep.segment_read`).
It is the index in the array of the document if, and only if, no null stands before the item:
`Entity.ofJson_indices` says so for every level that an error comes out of.
-/

namespace Dossier

/-- What stands under a key is read, unless it is null. -/
theorem Mapping.get?_ofJson_of_get? {entries : Table Json} {key : String} {json : Json}
    (found : entries.get? key = some json) (present : json.isNull = false) :
    Table.get? (Mapping.ofJson entries) key = some (.ofJson json) := by
  unfold Mapping.ofJson
  induction entries with
  | nil => cases found
  | cons entry entries ih =>
    obtain ⟨k, first⟩ := entry
    rw [Table.get?] at found
    rw [Value.mappingOfJson]
    by_cases same : k = key
    · obtain rfl : first = json := Option.some.inj (by simpa [same] using found)
      rw [if_neg (by simp [present]), Table.get?, if_pos same]
    · rw [if_neg same] at found
      split
      · exact ih found
      · rw [Table.get?, if_neg same, ih found]

theorem Mapping.ofJson_erase (entries : Table Json) (key : String) :
    Mapping.ofJson (entries.erase key) = Table.erase (Mapping.ofJson entries) key := by
  rw [Mapping.ofJson, Mapping.ofJson, Value.mappingOfJson_eq, Value.mappingOfJson_eq, Table.erase,
    Table.erase, List.filter_map, List.filter_filter, List.filter_filter]
  exact congrArg _ (List.filter_congr fun entry _ => Bool.and_comm _ _)

theorem Field.embedded_ofJson (f : Field) (entries : Table Json) :
    Mapping.ofJson (f.embedded entries) = f.embedded (Mapping.ofJson entries) := by
  unfold embedded
  cases f.kind with
  | related type => rw [Mapping.ofJson_erase, Mapping.ofJson_erase]
  | _ => rfl

theorem Value.itemsOfJson_append (items others : List Json) :
    itemsOfJson (items ++ others) = itemsOfJson items ++ itemsOfJson others := by
  simp only [itemsOfJson_eq, List.filter_append, List.map_append]

/-! ## Positions in a document -/

/-- Where a part stands in what a document has under a key: it is all of that, or an item of an
array. -/
inductive Json.Position where
  | whole
  | item (before after : List Json)

namespace Json.Position

/-- What the document has under the key, with a part in the position. -/
def holding : Json.Position → Json → Json
  | whole, json => json
  | item before after, json => .array (before ++ json :: after)

/-- The items of the array before the part. -/
def before : Json.Position → List Json
  | whole => []
  | item before _ => before

/-- Where the value of the part stands. -/
def read : Json.Position → Dossier.Position
  | whole => .whole
  | item before after => .item (Value.itemsOfJson before) (Value.itemsOfJson after)

theorem length_before_read (position : Json.Position) :
    position.read.before.length = position.before.countP (!·.isNull) := by
  cases position with
  | whole => rfl
  | item before after =>
    show (Value.itemsOfJson before).length = _
    rw [Value.itemsOfJson_eq, List.length_map, List.countP_eq_length_filter]
    rfl

theorem ofJson_holding (position : Json.Position) (entries : Table Json) :
    Value.ofJson (position.holding (.object entries)) =
      position.read.holding (.mapping (Mapping.ofJson entries)) := by
  cases position with
  | whole => rfl
  | item before after =>
    rw [holding, Value.ofJson, Value.itemsOfJson_append]
    rfl

theorem isNull_holding (position : Json.Position) (entries : Table Json) :
    (position.holding (.object entries)).isNull = false := by
  cases position <;> rfl

end Json.Position

/-! ## Steps in a document -/

/-- Items of a field are told apart by their segments. -/
theorem Field.itemSegment_inj {f : Field} {i j : Nat} :
    f.itemSegment i = f.itemSegment j ↔ i = j := by
  refine ⟨fun same => ?_, fun same => by rw [same]⟩
  rw [itemSegment, itemSegment, String.append_left_inj, String.append_right_inj] at same
  have digits : Nat.toDigits 10 i = Nat.toDigits 10 j := String.ofList_injective same
  rw [← @Nat.ofDigitChars_toDigits 10 i (by decide) (by decide), digits,
    Nat.ofDigitChars_toDigits (by decide) (by decide)]

/-- A step from an object of a document to one that it holds for a field. -/
structure DocumentStep where
  field : Field
  position : Json.Position

namespace DocumentStep

/-- The step with the index that the inner object has in its array. -/
def segment (step : DocumentStep) : String :=
  if step.field.isMultiple then step.field.itemSegment step.position.before.length
  else step.field.name

/-- The step in what the document is read as. -/
def read (step : DocumentStep) : Step := ⟨step.field, step.position.read⟩

/-- Errors tell an item by the number of items before it that are no nulls. -/
theorem segment_read (step : DocumentStep) :
    step.read.segment =
      if step.field.isMultiple then
        step.field.itemSegment (step.position.before.countP (!·.isNull))
      else step.field.name := by
  unfold Step.segment
  rw [← step.position.length_before_read]
  rfl

/-- That is the index in the document if none of the items before it is null, and only then. -/
theorem segment_read_eq_iff (step : DocumentStep) :
    step.read.segment = step.segment ↔
      (step.field.isMultiple = true → ∀ json ∈ step.position.before, json.isNull = false) := by
  rw [segment_read, segment]
  cases step.field.isMultiple with
  | false => simp
  | true =>
    rw [if_pos rfl, if_pos rfl, Field.itemSegment_inj, List.countP_eq_length]
    simp

/-- The step leads from an object that is read for a type to an object in it. -/
structure LeadsTo (ctx : Context) (type : TypeKey) (entries : Table Json) (store : Store)
    (step : DocumentStep) (inner : Table Json) (between : Store) : Prop where
  held : entries.get? step.field.name = some (step.position.holding (.object inner))
  tried : step.read.Tried ctx type (Mapping.ofJson entries) store between

theorem LeadsTo.read {ctx : Context} {type : TypeKey} {entries inner : Table Json}
    {store between : Store} {step : DocumentStep}
    (leads : step.LeadsTo ctx type entries store inner between) :
    step.read.LeadsTo ctx type (Mapping.ofJson entries) store (Mapping.ofJson inner) between where
  held := by
    have present := step.position.isNull_holding inner
    refine (Mapping.get?_ofJson_of_get? leads.held present).trans ?_
    exact congrArg some (step.position.ofJson_holding inner)
  tried := leads.tried

end DocumentStep

/-- The steps lead inwards to an object of the document that is refused with the error, and nothing
else is wrong with any of those on the way. -/
inductive DocumentFailsOnlyAt (ctx : Context) (e : EntityError) :
    List DocumentStep → TypeKey → Table Json → Store → Prop where
  | last {step : DocumentStep} {type : TypeKey} {entries inner : Table Json}
      {store between after : Store} (leads : step.LeadsTo ctx type entries store inner between)
      (only : (ctx.typeOf type).OnlyRefuses ctx (Mapping.ofJson entries) store step.field)
      (fails : step.field.FailsOn ctx (Mapping.ofJson inner) between e after) :
      DocumentFailsOnlyAt ctx e [step] type entries store
  | next {step : DocumentStep} {steps : List DocumentStep} {type below : TypeKey}
      {entries inner : Table Json} {store between : Store}
      (leads : step.LeadsTo ctx type entries store inner between)
      (only : (ctx.typeOf type).OnlyRefuses ctx (Mapping.ofJson entries) store step.field)
      (builds : step.field.BuildsAs ctx (Mapping.ofJson inner) below)
      (rest : DocumentFailsOnlyAt ctx e steps below (step.field.embedded inner) between) :
      DocumentFailsOnlyAt ctx e (step :: steps) type entries store

/-- What the document is read as fails at the same steps. -/
theorem DocumentFailsOnlyAt.read {ctx : Context} {e : EntityError} {steps : List DocumentStep}
    {type : TypeKey} {entries : Table Json} {store : Store}
    (fails : DocumentFailsOnlyAt ctx e steps type entries store) :
    FailsOnlyAt ctx e (steps.map (·.read)) type (Mapping.ofJson entries) store := by
  induction fails with
  | last leads only fails => exact .last leads.read only fails
  | next leads only builds rest ih =>
    rw [Field.embedded_ofJson] at ih
    exact .next leads.read only builds ih

/-- The ways to read an object as an entity of a type. -/
inductive ReadsDocument (ctx : Context) (type : TypeKey) (entries : Table Json) :
    Action Entity → Prop where
  | ofJson : ReadsDocument ctx type entries (Entity.ofJson ctx type (.object entries))
  | parse {document : Document} (decoded : document.toMapping ctx = .ok (Mapping.ofJson entries))
      (picked : ctx.types.pick (Mapping.ofJson entries) = .ok type) :
      ReadsDocument ctx type entries (document.parse ctx)
  | parseAs {document : Document} {name : String} (named : ctx.typeNamed name = .ok type)
      (decoded : document.toMapping ctx = .ok (Mapping.ofJson entries)) :
      ReadsDocument ctx type entries (document.parseAs ctx name)

theorem ReadsDocument.eq {ctx : Context} {type : TypeKey} {entries : Table Json}
    {read : Action Entity} (reads : ReadsDocument ctx type entries read) :
    read = Entity.ofMapping ctx type (Mapping.ofJson entries) := by
  cases reads with
  | ofJson => rfl
  | parse decoded picked =>
    rw [Document.parse, decoded, Action.except_ok_bind, picked, Action.except_ok_bind]
  | parseAs named decoded =>
    rw [Document.parseAs, named, Action.except_ok_bind, decoded, Action.except_ok_bind]

/-- The error of a mapping is among those of the entity that it is supplied for. -/
theorem Step.LeadsTo.ofMapping_tells {ctx : Context} {type : TypeKey} {supplied m : Mapping}
    {store : Store} {step : Step} {between after : Store} {e : EntityError}
    (leads : step.LeadsTo ctx type supplied store m between)
    (fails : step.field.FailsOn ctx m between e after) :
    ∃ errors told, ((Entity.ofMapping ctx type supplied).run.run store).1 = .error told ∧
      EntityError.combine errors = some told ∧ e.within step.segment ∈ errors := by
  have refused := leads.mem_trials fails
  rw [Entity.ofMapping_run]
  dsimp only
  generalize (ctx.typeOf type).trials ctx ctx.builders supplied (ctx.typeOf type).fields []
    store = trials at refused ⊢
  have told : e.within step.segment ∈ (ctx.typeOf type).complaints ctx supplied trials := by
    have among : e.within step.segment ∈ trials.errors :=
      List.mem_filterMap.2 ⟨_, refused, Trial.error?_rejected _ _⟩
    unfold EntityType.complaints
    simp only [List.mem_append, among, or_true, true_or]
  cases all : EntityError.combine ((ctx.typeOf type).complaints ctx supplied trials) with
  | none =>
    rw [EntityError.combine_eq_none all] at told
    exact absurd told List.not_mem_nil
  | some error => exact ⟨_, error, rfl, all, told⟩

/-- **What an index in a path counts.** An object of a document that is refused is told, in the error
of the entity that it was to be part of, with the number of items before it that are no nulls;
whatever else is wrong, that error is among the entity's. If nothing else is, it comes out of all
the levels with such a segment for each. These are the indices in the arrays of the document
exactly where no null stands before. -/
theorem Entity.ofJson_indices {ctx : Context} {type : TypeKey} {entries : Table Json}
    {read : Action Entity} (reads : ReadsDocument ctx type entries read) (store : Store) :
    (∀ (step : DocumentStep) (inner : Table Json) (between after : Store) (e : EntityError),
      step.LeadsTo ctx type entries store inner between →
      step.field.FailsOn ctx (Mapping.ofJson inner) between e after →
      ∃ errors told, (read.run.run store).1 = .error told ∧
        EntityError.combine errors = some told ∧ e.within step.read.segment ∈ errors) ∧
    (∀ (steps : List DocumentStep) (e : EntityError), e.path? = none →
      DocumentFailsOnlyAt ctx e steps type entries store →
      (read.run.run store).1 = .error (.atPath (steps.map (·.read.segment)) e)) ∧
    ∀ step : DocumentStep,
      step.read.segment = (if step.field.isMultiple then
        step.field.itemSegment (step.position.before.countP (!·.isNull)) else step.field.name) ∧
      (step.read.segment = step.segment ↔
        (step.field.isMultiple = true → ∀ json ∈ step.position.before, json.isNull = false)) := by
  rw [reads.eq]
  refine ⟨fun step inner between after e leads fails => ?_, fun steps e own fails => ?_,
    fun step => ⟨step.segment_read, step.segment_read_eq_iff⟩⟩
  · exact leads.read.ofMapping_tells fails
  · obtain ⟨after, run⟩ := fails.read.build_error own
    rw [List.map_map] at run
    exact congrArg Prod.fst (Build.finish_run_error run)

namespace DocumentIndices

/-- A null, and then an object with a colour. -/
def nullThenColoured : Table Json :=
  [("related_objects", .array [.null, .object [("colour", .string "red")]])]

/-- The step to the coloured object. -/
def stepToColoured : DocumentStep := ⟨Reachable.relatedObjects, .item [.null] []⟩

theorem coloured_fails :
    stepToColoured.LeadsTo Request.bareContext Catalog.objectKey nullThenColoured {}
        [("colour", .string "red")] { supply.drawn := 1 } ∧
      stepToColoured.field.FailsOn Request.bareContext (Mapping.ofJson [("colour", .string "red")])
        { supply.drawn := 1 } (.unexpectedProperties "Object" ["colour"]) { supply.drawn := 2 } :=
  ⟨⟨rfl, Catalog.objectType.fields.take 6, [], rfl, .item rfl rfl⟩, .unread rfl rfl⟩

theorem coloured_failsOnly :
    DocumentFailsOnlyAt Request.bareContext (.unexpectedProperties "Object" ["colour"])
      [stepToColoured] Catalog.objectKey nullThenColoured {} :=
  .last coloured_fails.1 (ErrorPaths.onlyRefuses_of_all rfl rfl rfl rfl) coloured_fails.2

/-- The object has index 1 in the document, and its error is told with index 0. -/
theorem coloured_misplaced :
    DocumentFailsOnlyAt Request.bareContext (.unexpectedProperties "Object" ["colour"])
      [stepToColoured] Catalog.objectKey nullThenColoured {} ∧
    stepToColoured.segment = "related_objects[1]" ∧
    ((Entity.ofJson Request.bareContext Catalog.objectKey (.object nullThenColoured)).run.run {}).1 =
      .error (.atPath ["related_objects[0]"] (.unexpectedProperties "Object" ["colour"])) :=
  ⟨coloured_failsOnly, rfl, rfl⟩

/-- The error of the object by what the document is, alone and among all there may be. -/
theorem coloured_indices :
    (∃ errors told,
      ((Entity.ofJson Request.bareContext Catalog.objectKey
        (.object nullThenColoured)).run.run {}).1 = .error told ∧
      EntityError.combine errors = some told ∧
      EntityError.within stepToColoured.read.segment (.unexpectedProperties "Object" ["colour"]) ∈
        errors) ∧
    ((Entity.ofJson Request.bareContext Catalog.objectKey
      (.object nullThenColoured)).run.run {}).1 =
        .error (.atPath [stepToColoured.read.segment] (.unexpectedProperties "Object" ["colour"])) ∧
    stepToColoured.read.segment ≠ stepToColoured.segment := by
  obtain ⟨among, alone, indices⟩ :=
    @Entity.ofJson_indices Request.bareContext Catalog.objectKey nullThenColoured _ .ofJson {}
  refine ⟨among _ _ _ _ _ coloured_fails.1 coloured_fails.2, alone _ _ rfl coloured_failsOnly, ?_⟩
  intro same
  have present := (indices stepToColoured).2.1 same rfl .null List.mem_cons_self
  cases present

end DocumentIndices

end Dossier
