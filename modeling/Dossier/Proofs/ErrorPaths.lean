import Dossier.Proofs.Prebuilt
import Dossier.Proofs.RecordReading

/-!
# Paths of errors

An error below the outermost entity is handed outwards level by level, and each level puts its
segment before the path. Two views are brought together here. `FailsOnlyAt` follows the steps from
an entity inwards to the mapping that cannot be built, and says that nothing else is wrong on the
way. The step lemma `Step.LeadsTo.build_error` turns the error of one level into that of the next
one out, and by induction on the steps the construction has failed with the segments of all of them
for its path (`FailsOnlyAt.build_error`). The text of a path puts a point between two segments
unless the second begins with a bracket, which it takes for an index.
-/

namespace Dossier

namespace Path

/-- Whether a segment is taken for an index, which stands behind another without a point. -/
def isIndex (segment : String) : Bool := segment.toList.head? = some '['

theorem text_singleton (segment : String) : text [segment] = segment := rfl

theorem text_cons_cons (segment next : String) (rest : Path) :
    text (segment :: next :: rest) =
      segment ++ ((if isIndex (text (next :: rest)) then "" else ".") ++ text (next :: rest)) := by
  rw [← String.append_assoc]
  simp only [text, isIndex, decide_eq_true_eq]

theorem isIndex_append {segment : String} (named : segment ≠ "") (s : String) :
    isIndex (segment ++ s) = isIndex segment := by
  obtain ⟨c, cs, chars⟩ := List.exists_cons_of_ne_nil (mt String.toList_eq_nil_iff.1 named)
  rw [isIndex, isIndex, String.toList_append, chars, List.cons_append, List.head?_cons,
    List.head?_cons]

/-- A path without indices does not read as an index itself. -/
theorem isIndex_text {path : Path} (pointed : ∀ segment ∈ path, isIndex segment = false) :
    isIndex path.text = false := by
  induction path with
  | nil => rfl
  | cons segment rest ih =>
    obtain ⟨first, later⟩ := List.forall_mem_cons.1 pointed
    cases rest with
    | nil => exact first
    | cons next rest =>
      -- the first character is that of the segment, or the point behind an empty one
      rw [text_cons_cons, ih later, isIndex, String.toList_append]
      cases chars : segment.toList with
      | nil => simp
      | cons c cs => simpa [isIndex, chars] using first

/-- The segments of a path are joined by points if those after the first are no indices. -/
theorem text_eq_intercalate {path : Path}
    (pointed : ∀ segment ∈ path.tail, isIndex segment = false) :
    path.text = ".".intercalate path := by
  induction path with
  | nil => rw [text, String.intercalate_nil]
  | cons segment rest ih =>
    cases rest with
    | nil => rw [text_singleton, String.intercalate_singleton]
    | cons next rest =>
      have below : isIndex (text (next :: rest)) = false := isIndex_text pointed
      have later : ∀ other ∈ rest, isIndex other = false := by
        intro other member
        exact pointed other (List.mem_cons_of_mem _ member)
      rw [text_cons_cons, below, if_neg Bool.false_ne_true, ih later,
        String.intercalate_cons_cons, String.append_assoc]

/-- An index behind a name reads as one segment with it. -/
theorem text_index {index : String} (bracket : isIndex index = true) (name : String) (rest : Path) :
    text (name :: index :: rest) = text ((name ++ index) :: rest) := by
  have named : index ≠ "" := by
    rintro rfl
    cases bracket
  cases rest with
  | nil =>
    rw [text_cons_cons, text_singleton, text_singleton, bracket, if_pos rfl, String.empty_append]
  | cons segment rest =>
    rw [text_cons_cons name, text_cons_cons index, isIndex_append named, bracket, if_pos rfl,
      String.empty_append, text_cons_cons, String.append_assoc]

end Path

namespace EntityError

variable {e : EntityError}

theorem root_of_path? (own : e.path? = none) : e.root = e := by
  cases e with
  | atPath path cause => cases own
  | _ => rfl

theorem within_of_path? (own : e.path? = none) (segment : String) :
    e.within segment = .atPath [segment] e := by
  cases e with
  | atPath path cause => cases own
  | _ => rfl

end EntityError

/-! ## Mappings in fields -/

namespace Position

/-- The items before the value. -/
def before : Position → List Value
  | whole => []
  | item before _ => before

/-- The items after the value. -/
def after : Position → List Value
  | whole => []
  | item _ after => after

theorem itemsOf_holding (position : Position) (m : Mapping) :
    Field.itemsOf (position.holding (.mapping m)) =
      position.before ++ .mapping m :: position.after := by
  cases position <;> rfl

end Position

namespace Field

/-- What is built of the properties that are supplied for the field: all of them, or the payload of
the record of a related object. -/
def embedded {α : Type} (f : Field) (m : Table α) : Table α :=
  match f.kind with
  | .related _ => (m.erase relationshipKey).erase idrefKey
  | _ => m

/-- The type that a mapping supplied for the field is built as, if it is built at all. -/
inductive BuildsAs (ctx : Context) (f : Field) (m : Mapping) : TypeKey → Prop where
  | resolved {type : TypeKey} (unrelated : ∀ other, f.kind ≠ .related other)
      (resolved : f.builtType? ctx (.mapping m) = .ok (some type)) : BuildsAs ctx f m type
  | inline {type : TypeKey} (kind : f.kind = .related type)
      (relationship : RelatedObject.RelationshipReads m) (unnamed : m.get? idrefKey = none)
      (payload : RelatedObject.payloadOf m ≠ []) : BuildsAs ctx f m type

/-- A mapping supplied for the field is refused with an error of its own: no type is picked for
it, building it fails, or it is no record of a related object. -/
inductive FailsOn (ctx : Context) (f : Field) (m : Mapping) (store : Store) (e : EntityError)
    (after : Store) : Prop where
  | unpicked {name : String} {registry : Registry} (kind : f.kind = .polymorphic name)
      (known : ctx.registry name = .ok registry) (refused : registry.pick m = .error e)
      (undrawn : after = store) : FailsOn ctx f m store e after
  | unbuilt {type : TypeKey} (unrelated : ∀ other, f.kind ≠ .related other)
      (resolved : f.builtType? ctx (.mapping m) = .ok (some type))
      (failed : ctx.build type m store = (.error e, after)) : FailsOn ctx f m store e after
  | unread {type : TypeKey} (kind : f.kind = .related type)
      (failed : RelatedObject.ofRecord ctx.build type m (RelatedObject.presentationOf m) store =
        (.error e, after)) : FailsOn ctx f m store e after

variable {ctx : Context} {f : Field} {m : Mapping} {store after : Store} {e : EntityError}

theorem embedded_of_unrelated {α : Type} (unrelated : ∀ other, f.kind ≠ .related other)
    (entries : Table α) : f.embedded entries = entries := by
  unfold embedded
  split
  · next other kind => exact absurd kind (unrelated other)
  · rfl

/-- Where a mapping is built, a failure of that is one of the field. -/
theorem BuildsAs.failsOn {type : TypeKey} (builds : f.BuildsAs ctx m type)
    (failed : ctx.build type (f.embedded m) store = (.error e, after)) :
    f.FailsOn ctx m store e after := by
  cases builds with
  | resolved unrelated resolved =>
    rw [embedded_of_unrelated unrelated] at failed
    exact .unbuilt unrelated resolved failed
  | inline kind relationship unnamed payload =>
    rw [embedded, kind] at failed
    have idref : RelatedObject.IdrefReads m := by
      intro raw found
      rw [unnamed] at found
      cases found
    refine .unread kind ?_
    rw [RelatedObject.ofRecord_eq relationship idref, unnamed]
    simp only [Option.bind_none, if_neg payload, map_eq_pure_bind]
    exact Build.bind_run_error failed _

/-- The field puts its segment before the error of a mapping. -/
theorem FailsOn.coerceKind_error (fails : f.FailsOn ctx m store e after) (owner : EntityType)
    (segment : String) :
    f.coerceKind ctx ctx.build owner segment (.mapping m) store =
      (.error (e.within segment), after) := by
  cases fails with
  | unpicked kind known refused undrawn =>
    rw [coerceKind_polymorphic kind known, refused, undrawn]
    rfl
  | unbuilt unrelated resolved failed =>
    rw [coerceKind_resolved unrelated resolved, map_eq_pure_bind]
    exact Build.bind_run_error (Build.within_run_error failed segment) _
  | unread kind failed =>
    rw [coerceKind_record kind, map_eq_pure_bind]
    exact Build.bind_run_error (Build.within_run_error failed segment) _

end Field

/-- Of trials of distinct fields one that was refused is the only one if the others were accepted. -/
theorem Trials.errors_of_refused {list : List Trial} (names : (list.map (·.field.name)).Nodup)
    {f : Field} {e : EntityError} (refused : ⟨f, .error e⟩ ∈ list)
    (accepted : ∀ trial ∈ list, trial.field.name ≠ f.name → ∃ held, trial.outcome = .ok held) :
    list.filterMap Trial.error? = [e] := by
  obtain ⟨before, rest, rfl⟩ := List.append_of_mem refused
  rw [List.map_append, List.map_cons, List.nodup_append] at names
  obtain ⟨-, later, apart⟩ := names
  -- no other trial is of the field, and those of others were accepted
  have quiet : ∀ trial ∈ before ++ rest, trial.error? = none := by
    intro trial member
    have other : trial.field.name ≠ f.name := by
      rcases List.mem_append.1 member with first | last
      · exact apart _ (List.mem_map_of_mem first) _ List.mem_cons_self
      · exact fun same => (List.nodup_cons.1 later).1 (List.mem_map.2 ⟨trial, last, same⟩)
    have among : trial ∈ before ++ ⟨f, .error e⟩ :: rest :=
      (List.sublist_cons_self _ rest).append_left before |>.subset member
    obtain ⟨held, same⟩ := accepted trial among other
    obtain ⟨g, outcome⟩ := trial
    obtain rfl : outcome = .ok held := same
    rfl
  obtain ⟨first, last⟩ := List.forall_mem_append.1 quiet
  rw [List.filterMap_append, List.filterMap_cons_some (Trial.error?_rejected f e),
    List.filterMap_eq_nil_iff.2 first, List.filterMap_eq_nil_iff.2 last, List.nil_append]

namespace EntityType

variable {ctx : Context} {builders : Builders} {t : EntityType} {supplied : Mapping} {f : Field}
  {e : EntityError} {after : Store}

/-- What is supplied to a field is coerced with what the fields before it have left of the store. -/
theorem mem_trials_of_refused {raw : Value} (held : supplied.get? f.name = some raw)
    {earlier : List Field} (later : List Field) {assigned : Mapping} {store : Store}
    (refused : f.coerce ctx builders.supplied t raw
      (t.trials ctx builders supplied earlier assigned store).store = (.error e, after)) :
    ⟨f, .error e⟩ ∈ (t.trials ctx builders supplied (earlier ++ f :: later) assigned store).list := by
  induction earlier generalizing assigned store with
  | nil =>
    have filled : (f.fill ctx builders t assigned (supplied.get? f.name)).bare store =
        (.error e, after) := by
      have run : (some <$> f.coerce ctx builders.supplied t raw) store = (.error e, after) := by
        rw [map_eq_pure_bind]
        exact Build.bind_run_error refused _
      rw [held, Field.fill, Build.bare, run]
      rfl
    obtain ⟨list, -⟩ := trials_cons ctx builders t supplied f later assigned store
    rw [List.nil_append, list, filled]
    exact List.mem_cons_self
  | cons g earlier ih =>
    obtain ⟨list, -⟩ := trials_cons ctx builders t supplied g (earlier ++ f :: later) assigned store
    -- the fields before it leave the store in which it is refused
    rw [(trials_cons ctx builders t supplied g earlier assigned store).2] at refused
    rw [List.cons_append, list]
    exact List.mem_cons_of_mem _ (ih refused)

/-- Of the fields of a type all but one are accepted, and nothing else is wrong with what was
supplied. -/
structure OnlyRefuses (ctx : Context) (t : EntityType) (supplied : Mapping) (store : Store)
    (f : Field) : Prop where
  tag : t.tagErrors supplied = []
  accepted : ∀ trial ∈ (t.trials ctx ctx.builders supplied t.fields [] store).list,
    trial.field.name ≠ f.name → ∃ held, trial.outcome = .ok held
  complete : t.missingErrors supplied = []
  expected : t.unexpectedErrors ctx supplied = []

/-- The error of the one field that is refused is all there is to complain of. -/
theorem OnlyRefuses.complaints_eq {store : Store} (only : t.OnlyRefuses ctx supplied store f)
    (refused : ⟨f, .error e⟩ ∈ (t.trials ctx ctx.builders supplied t.fields [] store).list) :
    t.complaints ctx supplied (t.trials ctx ctx.builders supplied t.fields [] store) = [e] := by
  have names := Trials.nodup_names (trials_fields ctx ctx.builders t supplied t.fields [] store)
  have errors : (t.trials ctx ctx.builders supplied t.fields [] store).errors = [e] :=
    Trials.errors_of_refused names refused only.accepted
  rw [complaints, only.tag, errors, only.complete, only.expected]
  rfl

end EntityType

/-! ## Steps inwards -/

namespace Field

variable {ctx : Context} {owner : EntityType} {f : Field} {raw : Value} {store after : Store}
  {e : EntityError}

theorem coerceSingle_refused {segment : String}
    (refused : f.coerceKind ctx ctx.build owner segment raw store = (.error e, after)) :
    f.coerceSingle ctx ctx.build owner segment raw store = (.error e, after) :=
  Build.bind_run_error refused _

/-- The first item that is refused is told by the number of those before it. -/
theorem coerceItems_refused {before : List Value} (rest : List Value) {index : Nat}
    {values : List Value} {calls : List HookCall} {between : Store}
    (passed : f.coerceItems ctx ctx.build owner index before store = (.ok (values, calls), between))
    (refused : f.coerceKind ctx ctx.build owner (f.itemSegment (index + before.length)) raw between =
      (.error e, after)) :
    f.coerceItems ctx ctx.build owner index (before ++ raw :: rest) store = (.error e, after) := by
  induction before generalizing index store values calls with
  | nil =>
    obtain rfl : store = between := (Prod.mk.inj passed).2
    exact Build.bind_run_error (coerceSingle_refused refused) _
  | cons item before ih =>
    obtain ⟨value, first, last, more, single, later, -⟩ := Build.bind_eq_ok passed
    obtain ⟨others, _, _, _, items, done, -⟩ := Build.bind_eq_ok later
    obtain rfl := (Prod.mk.inj done).2
    rw [List.length_cons, Nat.add_comm before.length, ← Nat.add_assoc] at refused
    exact Build.bind_run_then_error single (Build.bind_run_error (ih items refused) _)

end Field

/-- A step from an entity to a mapping that is supplied for one of its fields. -/
structure Step where
  field : Field
  position : Position

namespace Step

/-- The step as the path of an error tells it. -/
def segment (step : Step) : String :=
  if step.field.isMultiple then step.field.itemSegment step.position.before.length
  else step.field.name

/-- What coercing the field draws before it comes to the position: a single value is tried at once,
and of a list all items before must have passed. -/
inductive Reaches (ctx : Context) (owner : EntityType) (step : Step) (store : Store) :
    Store → Prop where
  | single (one : step.field.isMultiple = false) (whole : step.position = .whole) :
      Reaches ctx owner step store store
  | item {values : List Value} {calls : List HookCall} {between : Store}
      (multiple : step.field.isMultiple = true)
      (passed : step.field.coerceItems ctx ctx.build owner 0 step.position.before store =
        (.ok (values, calls), between)) : Reaches ctx owner step store between

/-- The step is tried after the fields before its own, with what is then left of the store. -/
def Tried (ctx : Context) (type : TypeKey) (supplied : Mapping) (store : Store) (step : Step)
    (between : Store) : Prop :=
  ∃ earlier later, (ctx.typeOf type).fields = earlier ++ step.field :: later ∧
    step.Reaches ctx (ctx.typeOf type)
      ((ctx.typeOf type).trials ctx ctx.builders supplied earlier [] store).store between

/-- The step leads from what was supplied for a type to a mapping, with what is left of the store
when that mapping is built. -/
structure LeadsTo (ctx : Context) (type : TypeKey) (supplied : Mapping) (store : Store)
    (step : Step) (m : Mapping) (between : Store) : Prop where
  held : supplied.get? step.field.name = some (step.position.holding (.mapping m))
  tried : step.Tried ctx type supplied store between

variable {ctx : Context} {owner : EntityType} {step : Step} {m : Mapping}
  {store between after : Store} {e : EntityError}

theorem Reaches.coerce_error (reached : step.Reaches ctx owner store between)
    (fails : step.field.FailsOn ctx m between e after) :
    step.field.coerce ctx ctx.build owner (step.position.holding (.mapping m)) store =
      (.error (e.within step.segment), after) := by
  have refused := fails.coerceKind_error owner step.segment
  unfold Field.coerce
  cases reached with
  | single one whole =>
    rw [segment, one, if_neg Bool.false_ne_true] at refused
    rw [one, if_neg Bool.false_ne_true, whole, segment, one, if_neg Bool.false_ne_true]
    exact Field.coerceSingle_refused refused
  | item multiple passed =>
    have nonempty : (step.position.before ++ .mapping m :: step.position.after).isEmpty = false := by
      simp
    rw [multiple, if_pos rfl, Position.itemsOf_holding, nonempty, Bool.false_and,
      if_neg Bool.false_ne_true, map_eq_pure_bind]
    refine Build.bind_run_error (Field.coerceItems_refused _ passed ?_) _
    rw [Nat.zero_add]
    rw [segment, multiple, if_pos rfl] at refused ⊢
    exact refused

variable {type : TypeKey} {supplied : Mapping}

/-- Whatever else is wrong with the entity, the error of the mapping is told with the step. -/
theorem LeadsTo.mem_trials (leads : step.LeadsTo ctx type supplied store m between)
    (fails : step.field.FailsOn ctx m between e after) :
    ⟨step.field, .error (e.within step.segment)⟩ ∈
      ((ctx.typeOf type).trials ctx ctx.builders supplied (ctx.typeOf type).fields []
        store).list := by
  obtain ⟨earlier, later, fields, reached⟩ := leads.tried
  have refused := reached.coerce_error fails
  rw [← ctx.builders_supplied] at refused
  rw [fields]
  exact EntityType.mem_trials_of_refused leads.held later refused

/-- One level of the path: if nothing else is wrong the entity fails with the error of the mapping,
and the step stands before the path of that. -/
theorem LeadsTo.build_error (leads : step.LeadsTo ctx type supplied store m between)
    (only : (ctx.typeOf type).OnlyRefuses ctx supplied store step.field)
    (fails : step.field.FailsOn ctx m between e after) :
    ∃ last, ctx.build type supplied store = (.error (e.within step.segment), last) := by
  rw [ctx.build_eq, EntityType.construct_run]
  dsimp only
  rw [only.complaints_eq (leads.mem_trials fails)]
  exact ⟨_, rfl⟩

end Step

/-- The steps lead inwards to a mapping that is refused with the error, and nothing else is wrong
with any of the entities on the way. -/
inductive FailsOnlyAt (ctx : Context) (e : EntityError) :
    List Step → TypeKey → Mapping → Store → Prop where
  | last {step : Step} {type : TypeKey} {supplied m : Mapping} {store between after : Store}
      (leads : step.LeadsTo ctx type supplied store m between)
      (only : (ctx.typeOf type).OnlyRefuses ctx supplied store step.field)
      (fails : step.field.FailsOn ctx m between e after) :
      FailsOnlyAt ctx e [step] type supplied store
  | next {step : Step} {steps : List Step} {type inner : TypeKey} {supplied m : Mapping}
      {store between : Store} (leads : step.LeadsTo ctx type supplied store m between)
      (only : (ctx.typeOf type).OnlyRefuses ctx supplied store step.field)
      (builds : step.field.BuildsAs ctx m inner)
      (below : FailsOnlyAt ctx e steps inner (step.field.embedded m) between) :
      FailsOnlyAt ctx e (step :: steps) type supplied store

/-- The error comes out of all the levels with the segments of all the steps, by induction on the
steps. -/
theorem FailsOnlyAt.build_error {ctx : Context} {e : EntityError} {steps : List Step}
    {type : TypeKey} {supplied : Mapping} {store : Store} (own : e.path? = none)
    (fails : FailsOnlyAt ctx e steps type supplied store) :
    ∃ after, ctx.build type supplied store = (.error (.atPath (steps.map (·.segment)) e), after) := by
  induction fails with
  | last leads only fails =>
    obtain ⟨after, run⟩ := leads.build_error only fails
    rw [EntityError.within_of_path? own] at run
    exact ⟨after, run⟩
  | next leads only builds below ih =>
    obtain ⟨last, inner⟩ := ih
    exact leads.build_error only (builds.failsOn inner)

/-- The names of the fields are apart from indices: none begins with a bracket, and a field of lists
has a name that its indices stand behind. -/
def EntityType.Pointed (t : EntityType) : Prop :=
  ∀ f ∈ t.fields, Path.isIndex f.name = false ∧ (f.isMultiple = true → f.name ≠ "")

instance (t : EntityType) : Decidable t.Pointed :=
  inferInstanceAs (Decidable (∀ f ∈ t.fields, _ ∧ _))

theorem EntityType.Pointed.segment {t : EntityType} (pointed : t.Pointed) {step : Step}
    (declared : step.field ∈ t.fields) : Path.isIndex step.segment = false := by
  obtain ⟨unbracketed, named⟩ := pointed _ declared
  unfold Step.segment
  cases multiple : step.field.isMultiple with
  | false => exact unbracketed
  | true =>
    rw [if_pos rfl, Field.itemSegment, String.append_assoc, String.append_assoc,
      Path.isIndex_append (named multiple)]
    exact unbracketed

theorem Step.LeadsTo.declared {ctx : Context} {type : TypeKey} {supplied m : Mapping}
    {store between : Store} {step : Step}
    (leads : step.LeadsTo ctx type supplied store m between) :
    step.field ∈ (ctx.typeOf type).fields := by
  obtain ⟨earlier, later, fields, -⟩ := leads.tried
  simp [fields]

theorem FailsOnlyAt.pointed {ctx : Context} {e : EntityError} {steps : List Step}
    {type : TypeKey} {supplied : Mapping} {store : Store}
    (pointed : ∀ type, (ctx.typeOf type).Pointed)
    (fails : FailsOnlyAt ctx e steps type supplied store) :
    ∀ segment ∈ steps.map (·.segment), Path.isIndex segment = false := by
  induction fails with
  | last leads only fails =>
    exact List.forall_mem_singleton.2 ((pointed _).segment leads.declared)
  | next leads only builds below ih =>
    exact List.forall_mem_cons.2 ⟨(pointed _).segment leads.declared, ih⟩

/-- **Paths point at what failed.** If following some steps inwards a mapping is refused with an error
of its own, and nothing else is wrong on the way, the entity is refused with that error, and the
path of it is the segments of the steps joined by points. -/
theorem Entity.ofMapping_failsAt {ctx : Context} (pointed : ∀ type, (ctx.typeOf type).Pointed)
    {e : EntityError} (own : e.path? = none) {steps : List Step} {type : TypeKey}
    {supplied : Mapping} {store : Store} (fails : FailsOnlyAt ctx e steps type supplied store) :
    ∃ told after, (ofMapping ctx type supplied).run.run store = (.error told, after) ∧
      told.path? = some (".".intercalate (steps.map (·.segment))) ∧ told.root = e := by
  obtain ⟨after, run⟩ := fails.build_error own
  refine ⟨_, _, Build.finish_run_error run, ?_, ?_⟩
  · rw [EntityError.path?, Path.text_eq_intercalate]
    intro segment member
    exact fails.pointed pointed segment (List.mem_of_mem_tail member)
  · rw [EntityError.root, EntityError.root_of_path? own]

namespace ErrorPaths

/-- Nothing else is wrong, by a look at all trials. -/
theorem onlyRefuses_of_all {ctx : Context} {t : EntityType} {supplied : Mapping} {store : Store}
    {f : Field} (tag : t.tagErrors supplied = []) (complete : t.missingErrors supplied = [])
    (expected : t.unexpectedErrors ctx supplied = [])
    (all : (t.trials ctx ctx.builders supplied t.fields [] store).list.all
      (fun trial => trial.field.name == f.name || trial.error?.isNone) = true) :
    t.OnlyRefuses ctx supplied store f where
  tag
  complete
  expected
  accepted trial member other := by
    have quiet := List.all_eq_true.1 all trial member
    obtain ⟨g, outcome⟩ := trial
    cases outcome with
    | ok held => exact ⟨held, rfl⟩
    | error e => simp_all

/-- An object with a colour, in another, which is the second related to a third. -/
def coloured : Mapping := [("colour", .string "red")]

def around : Mapping := [("related_objects", .list [.mapping coloured])]

def outermost : Mapping :=
  [("related_objects", .list [.mapping [("state", .string "seen")], .mapping around])]

/-- What is built before it. -/
def seenObject : Entity where
  typeKey := Catalog.objectKey
  values :=
    [("id", .string "object--00000000-0000-4000-8000-000000000002"), ("state", .string "seen")]
  extras := []

/-- The steps to the coloured object. -/
def stepsToColoured : List Step :=
  [⟨Reachable.relatedObjects, .item [.mapping [("state", .string "seen")]] []⟩,
    ⟨Reachable.relatedObjects, .item [] []⟩]

/-- The objects before the first step are built. -/
theorem seen_passes :
    Reachable.relatedObjects.coerceItems Request.bareContext Request.bareContext.build
      Catalog.objectType 0 [.mapping [("state", .string "seen")]] { supply.drawn := 1 } =
        (.ok ([.related (.inline seenObject none)], [⟨.cacheEntity, seenObject⟩]),
          { supply.drawn := 2 }) :=
  rfl

theorem coloured_fails :
    FailsOnlyAt Request.bareContext (.unexpectedProperties "Object" ["colour"]) stepsToColoured
      Catalog.objectKey outermost {} := by
  have first : Step.LeadsTo Request.bareContext Catalog.objectKey outermost {}
      ⟨Reachable.relatedObjects, .item [.mapping [("state", .string "seen")]] []⟩ around
      { supply.drawn := 2 } :=
    ⟨rfl, Catalog.objectType.fields.take 6, [], rfl, .item rfl seen_passes⟩
  have second : Step.LeadsTo Request.bareContext Catalog.objectKey around { supply.drawn := 2 }
      ⟨Reachable.relatedObjects, .item [] []⟩ coloured { supply.drawn := 3 } :=
    ⟨rfl, Catalog.objectType.fields.take 6, [], rfl, .item rfl rfl⟩
  have payload : RelatedObject.payloadOf around ≠ [] := List.cons_ne_nil _ _
  have builds : Reachable.relatedObjects.BuildsAs Request.bareContext around Catalog.objectKey :=
    .inline rfl (fun raw found => by cases found) rfl payload
  exact .next first (onlyRefuses_of_all rfl rfl rfl rfl) builds
    (.last second (onlyRefuses_of_all rfl rfl rfl rfl) (.unread rfl rfl))

theorem pointed_catalog (type : TypeKey) : (Request.bareContext.typeOf type).Pointed := by
  have catalog : ∀ t ∈ Catalog.types.map (·.2), t.Pointed := by decide
  rcases Catalog.typeOf_schema (fun _ => Catalog.objectType) type with known | extended
  · exact catalog _ known
  · exact (congrArg EntityType.Pointed extended).mpr (by decide)

/-- Two levels of related objects. -/
theorem coloured_failsAt :
    ".".intercalate (stepsToColoured.map (·.segment)) =
      "related_objects[1].related_objects[0]" ∧
    ∃ told after,
      (Entity.ofMapping Request.bareContext Catalog.objectKey outermost).run.run {} =
        (.error told, after) ∧
      told.path? = some (".".intercalate (stepsToColoured.map (·.segment))) ∧
      told.root = .unexpectedProperties "Object" ["colour"] :=
  ⟨rfl, Entity.ofMapping_failsAt pointed_catalog rfl coloured_fails⟩

/-! A box holds a crate, and the crate holds toys under no name. -/

def crateKey : TypeKey := ⟨"Crate"⟩

def toyKey : TypeKey := ⟨"Toy"⟩

def nameless : Field := (Field.entity "" toyKey).list

def boxOf : Field := .entity "crate" crateKey

def toyType : EntityType := { name := "Toy", typeName := "toy", fields := [.text "maker"] }

def crateType : EntityType := { name := "Crate", typeName := "crate", fields := [nameless] }

def boxType : EntityType := { name := "Box", typeName := "box", fields := [boxOf] }

def boxContext : Context where
  schema := {
    typeOf := fun key =>
      if key = crateKey then crateType else if key = toyKey then toyType else boxType }
  ids := .sequential
  clock := .fixed .epoch

/-- A crate with a toy that has a colour. -/
def crate : Mapping := [("", .list [.mapping [("colour", .string "red")]])]

/-- The index of a toy is taken for one of the crate. -/
theorem nameless_misjoined :
    (∀ type, ∀ f ∈ (boxContext.typeOf type).fields, Path.isIndex f.name = false) ∧
    FailsOnlyAt boxContext (.unexpectedProperties "Toy" ["colour"])
      [⟨boxOf, .whole⟩, ⟨nameless, .item [] []⟩] ⟨"Box"⟩ [("crate", .mapping crate)] {} ∧
    ".".intercalate ([⟨boxOf, .whole⟩, ⟨nameless, .item [] []⟩].map Step.segment) = "crate.[0]" ∧
    ∃ told after,
      (Entity.ofMapping boxContext ⟨"Box"⟩ [("crate", .mapping crate)]).run.run {} =
        (.error told, after) ∧ told.path? = some "crate[0]" := by
  refine ⟨fun type f declared => ?_, ?_, rfl, _, _, rfl, rfl⟩
  · have types : ∀ t ∈ [crateType, toyType, boxType], ∀ f ∈ t.fields,
        Path.isIndex f.name = false := by decide
    have known : boxContext.typeOf type ∈ [crateType, toyType, boxType] := by
      show (if type = crateKey then crateType else if type = toyKey then toyType else boxType) ∈ _
      split
      · simp
      · split <;> simp
    exact types _ known f declared
  · refine .next (m := crate) ⟨rfl, [], [], rfl, .single rfl rfl⟩
      (onlyRefuses_of_all rfl rfl rfl rfl) (.resolved (fun _ => nofun) rfl) ?_
    exact .last (m := [("colour", .string "red")]) ⟨rfl, [], [], rfl, .item rfl rfl⟩
      (onlyRefuses_of_all rfl rfl rfl rfl) (.unbuilt (fun _ => nofun) rfl rfl)

end ErrorPaths

end Dossier
