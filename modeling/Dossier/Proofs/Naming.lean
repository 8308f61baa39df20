import Dossier.Proofs.CatalogTypes
import Dossier.Proofs.Editing

/-!
# Whom an identifier names

The validator of a type's identifiers looks for the type's name and two hyphens at
the start of a text, and for an identifier in the whole of it, which is cut at its
last two hyphens. The two together do not pin down the name: it may go on from
that of the type by one hyphen, or by two hyphens and anything
(`Validator.identifierOf_check`). Under such a name is the identifier of every
Grouping and Object that comes of any operations (`Catalog.obtained_under`).
-/

namespace Dossier

/-- The name of the identifier is that of a type, or goes on from it by one hyphen at its end or by
two hyphens. -/
def Identifier.Under (typeName : String) (id : Identifier) : Prop :=
  id.typeName = typeName ∨ id.typeName = typeName ++ "-" ∨
    Validator.begins (typeName ++ separator) id.typeName = true

namespace Validator

theorem begins_iff {start s : String} : begins start s = true ↔ start.toList <+: s.toList :=
  List.isPrefixOf_iff_prefix

/-- A text behind which no two hyphens adjoin begins with a name and two hyphens if it is that
name, or goes on from it by hyphens. -/
theorem prefix_hyphens_iff {start name digits : List Char}
    (joined : Identifier.cutLast ('-' :: digits) = none) :
    start ++ ['-', '-'] <+: name ++ '-' :: '-' :: digits ↔
      name = start ∨ name = start ++ ['-'] ∨ start ++ ['-', '-'] <+: name := by
  constructor
  · rintro ⟨rest, whole⟩
    rw [List.append_assoc] at whole
    rcases List.append_eq_append_iff.1 whole with ⟨more, rfl, tail⟩ | ⟨more, rfl, tail⟩
    · -- the name is as long as the start or longer
      rcases more with _ | ⟨c, _ | ⟨d, more⟩⟩
      · exact .inl (List.append_nil _)
      · simp only [List.cons_append, List.cons.injEq] at tail
        obtain ⟨rfl, -⟩ := tail
        exact .inr (.inl rfl)
      · simp only [List.cons_append, List.cons.injEq] at tail
        obtain ⟨rfl, rfl, -⟩ := tail
        exact .inr (.inr ⟨more, by simp⟩)
    · -- a longer start would end in two hyphens behind the first of the two that follow the name
      rcases more with _ | ⟨c, more⟩
      · exact .inl (List.append_nil _).symm
      · obtain ⟨-, tail⟩ := List.cons.inj tail
        rw [tail] at joined
        exact absurd joined (Identifier.cutLast_ne_none more rest)
  · rintro (rfl | rfl | ⟨rest, rfl⟩)
    · exact ⟨digits, by simp⟩
    · exact ⟨'-' :: digits, by simp⟩
    · exact ⟨rest ++ '-' :: '-' :: digits, by simp⟩

/-- An identifier's text begins with a type's name and two hyphens if its name is under the
type's. -/
theorem begins_text_iff {typeName : String} {id : Identifier} :
    begins (typeName ++ Identifier.separator) id.text = true ↔ id.Under typeName := by
  have separator : (typeName ++ Identifier.separator).toList = typeName.toList ++ ['-', '-'] :=
    String.toList_append
  have hyphen : (typeName ++ "-").toList = typeName.toList ++ ['-'] := String.toList_append
  rw [Identifier.Under, begins_iff, begins_iff, separator, Identifier.toList_text,
    prefix_hyphens_iff (Identifier.cutLast_chars id.uuid), ← hyphen, String.toList_inj,
    String.toList_inj]

/-- **What the validator of a type's identifiers lets pass**: the texts of the identifiers whose
name, which is not empty, is under that of the type. -/
theorem identifierOf_check (typeName : String) (value : Value) :
    (identifierOf typeName).check value = .ok () ↔
      ∃ id : Identifier, value = .string id.text ∧ id.typeName ≠ "" ∧ id.Under typeName := by
  unfold identifierOf check
  cases value with
  | string s =>
    simp only [Value.string?, Value.string.injEq]
    cases read : Identifier.parse? s with
    | none =>
      have unread : ∀ id : Identifier, s = id.text → id.typeName ≠ "" → False := by
        intro id written named
        rw [Identifier.parse?_eq_some_iff.2 ⟨named, written⟩] at read
        cases read
      constructor
      · intro passed
        split at passed <;> cases passed
      · rintro ⟨id, written, named, -⟩
        exact (unread id written named).elim
    | some id =>
      obtain ⟨named, rfl⟩ := Identifier.parse?_eq_some_iff.1 read
      constructor
      · intro passed
        split at passed
        · cases passed
        · next begun => exact ⟨id, rfl, named, begins_text_iff.1 (by simpa using begun)⟩
      · rintro ⟨other, written, otherNamed, under⟩
        -- there is one identifier of the text
        rw [Identifier.parse?_eq_some_iff.2 ⟨otherNamed, written⟩] at read
        obtain rfl := Option.some.inj read
        simp [begins_text_iff.2 under]
  | _ => simp [Value.string?]

end Validator

/-! ## What operations keep -/

/-- The entities that fit have the property, and setting something keeps it. -/
structure Context.Keeps (ctx : Context) (P : Entity → Prop) : Prop where
  fits {e : Entity} : e.Fits ctx → P e
  set {e changed : Entity} {name : String} {value : Value} {store after : Store} :
    P e → (e.set ctx name value).run.run store = (.ok changed, after) → P changed

/-- What an answer gives has a property, and what it changed does if that had it. -/
def Answer.Keeps (P : Entity → Prop) (held : Entity) : Answer → Prop
  | made e => P e
  | madeRelated r => ∀ e, r.embedded? = some e → P e
  | changed e => P held → P e

namespace Context.Keeps

variable {ctx : Context} {P : Entity → Prop} (keeps : ctx.Keeps P)

include keeps

theorem makes : ctx.build.Makes (fun _ => True) (·.Each fun _ => True) P := by
  intro type _ m each
  have fits := ctx.build_fits (Q := fun _ => True) (fun _ _ _ => trivial) (fun _ _ => trivial)
    type each
  exact fits.mono fun e ⟨same, fits, _⟩ => ⟨same, keeps.fits fits⟩

theorem ofMapping (type : TypeKey) (supplied : Mapping) :
    (Entity.ofMapping ctx type supplied).Ensures P := by
  apply Action.Ensures.finish
  exact (keeps.makes type trivial supplied fun _ _ _ _ => trivial).mono fun _ => And.right

theorem parse (document : Document) : (document.parse ctx).Ensures P := by
  refine .except_bind fun properties _ => ?_
  refine .except_bind fun type _ => ?_
  exact keeps.ofMapping type properties

theorem parseAs (typeName : String) (document : Document) :
    (document.parseAs ctx typeName).Ensures P := by
  refine .except_bind fun type _ => ?_
  refine .except_bind fun properties _ => ?_
  exact keeps.ofMapping type properties

theorem ofMappingAs (type : TypeKey) (record : Mapping) (shown : Presentation) :
    (RelatedObject.ofMappingAs ctx type record shown).Ensures fun r =>
      ∀ e, r.embedded? = some e → P e := by
  apply Action.Ensures.finish
  refine (RelatedObject.ofRecord_ensures ctx keeps.makes trivial
    (fun _ _ _ _ => trivial) shown).mono ?_
  rintro r ⟨-, made⟩ e inline
  exact (made e inline).2

theorem addRelated {o : Catalog.Object} (h : P o.entity) (other : Catalog.Object)
    (relationship : String) (isInline : Bool) :
    (o.addRelated ctx other relationship isInline).Ensures (P ·.entity) := by
  refine .except_bind fun r _ => .except_bind fun list _ => ?_
  refine .bind (P := P) (fun _ _ _ run => keeps.set h run) fun changed kept => ?_
  exact .after fun _ => .pure kept

/-- Whatever is asked for, what comes of it has the property. -/
theorem perform (held : Entity) (request : Request) :
    (request.perform ctx held).Ensures (Answer.Keeps P held) := by
  cases request with
  | ofProperties type properties => exact .map (keeps.ofMapping type _)
  | ofMapping type supplied => exact .map (keeps.ofMapping type supplied)
  | ofJson type document =>
    apply Action.Ensures.map
    cases document with
    | object entries => exact keeps.ofMapping type _
    | _ => exact .throw _
  | parse document => exact .map (keeps.parse document)
  | parseAs typeName document => exact .map (keeps.parseAs typeName document)
  | related type record => exact .map (keeps.ofMappingAs type record _)
  | relatedAs type record shown => exact .map (keeps.ofMappingAs type record shown)
  | grouping draft => exact .map (.map (keeps.ofMapping _ _))
  | set name value =>
    apply Action.Ensures.map
    intro store changed after run before
    exact keeps.set before run
  | addRelated other relationship isInline =>
    apply Action.Ensures.map
    intro store changed after run before
    exact keeps.addRelated before other relationship isInline store changed after run

end Context.Keeps

/-- What is set of the single fields has passed their validators, and no custom property has the
name of a field. -/
structure Entity.Checked (schema : Schema) (e : Entity) : Prop where
  valid : ∀ f ∈ (e.type schema).fields, f.isMultiple = false →
    ∀ value, Table.get? e.values f.name = some value → f.validate value = .ok ()
  apart : e.Apart schema

namespace Entity

variable {ctx : Context} {e changed : Entity} {name : String}

theorem Fits.checked (h : e.Fits ctx) : e.Checked ctx.schema where
  valid := by
    intro f declared single value held
    obtain ⟨g, other, same, stores⟩ := h.stored _ _ (Table.mem_of_get? held)
    obtain rfl := EntityType.eq_of_name_eq other declared same
    exact ((Field.stores_single single).1 stores).2
  apart := h.undeclared

theorem Checked.set (h : e.Checked ctx.schema) {value : Value} {store after : Store}
    (run : (e.set ctx name value).run.run store = (.ok changed, after)) :
    changed.Checked ctx.schema := by
  refine ⟨?_, h.apart.set run⟩
  rcases set_ok run with ⟨f, declared, rfl, held, stores, rfl⟩ | ⟨-, -, rfl⟩
  · intro g member single other found
    replace found : Table.get? (Table.insert e.values f.name held) g.name = some other := found
    rw [Table.get?_insert] at found
    split at found
    · next same =>
      obtain rfl := EntityType.eq_of_name_eq declared member same
      obtain rfl := Option.some.inj found
      exact ((Field.stores_single single).1 stores).2
    · exact h.valid g member single other found
  · exact h.valid

theorem Checked.unset {schema : Schema} (h : e.Checked schema) {cleared : Option Value}
    (run : e.unset schema name = .ok (cleared, changed)) : changed.Checked schema := by
  refine ⟨?_, h.apart.unset run⟩
  rcases unset_ok run with ⟨f, -, -, -, -, rfl⟩ | ⟨-, -, rfl⟩
  · intro g member single other found
    replace found : Table.get? (Table.erase e.values name) g.name = some other := found
    rw [Table.get?_erase] at found
    split at found
    · cases found
    · exact h.valid g member single other found
  · exact h.valid

theorem checked_keeps (ctx : Context) : ctx.Keeps (·.Checked ctx.schema) where
  fits := Fits.checked
  set h run := h.set run

end Entity

/-! ## Operations -/

/-- The entities of a schema that come of operations, each in any context of the schema and with
any arguments. -/
inductive Obtained : Schema → Entity → Prop where
  /-- What was made, by construction or by parsing. -/
  | made {ctx : Context} {held e : Entity} {request : Request} {store after : Store}
    (run : (request.perform ctx held).run.run store = (.ok (.made e), after)) :
    Obtained ctx.schema e
  /-- What is inline in a record that was read. -/
  | embedded {ctx : Context} {held e : Entity} {request : Request} {r : RelatedObject}
    {store after : Store}
    (run : (request.perform ctx held).run.run store = (.ok (.madeRelated r), after))
    (inline : r.embedded? = some e) : Obtained ctx.schema e
  /-- What was changed, by setting a property or by relating an object. -/
  | changed {ctx : Context} {held e : Entity} {request : Request} {store after : Store}
    (before : Obtained ctx.schema held)
    (run : (request.perform ctx held).run.run store = (.ok (.changed e), after)) :
    Obtained ctx.schema e
  /-- What a property was cleared of. -/
  | unset {schema : Schema} {e changed : Entity} {name : String} {cleared : Option Value}
    (before : Obtained schema e) (run : e.unset schema name = .ok (cleared, changed)) :
    Obtained schema changed
  /-- What is inside another entity, if all that was put there was reached as well. -/
  | reached {ctx : Context} {e : Entity} (h : Reachable ctx e) : Obtained ctx.schema e

/-- By induction on the operations. -/
theorem Obtained.keeps {P : Schema → Entity → Prop}
    (keeps : ∀ ctx : Context, ctx.Keeps (P ctx.schema))
    (unset : ∀ {schema e changed name cleared}, P schema e →
      e.unset schema name = .ok (cleared, changed) → P schema changed)
    {schema : Schema} {e : Entity} (h : Obtained schema e) : P schema e := by
  induction h with
  | @made ctx held e request store after run =>
    exact (keeps ctx).perform held request store (.made e) after run
  | @embedded ctx held e request r store after run inline =>
    exact (keeps ctx).perform held request store (.madeRelated r) after run e inline
  | @changed ctx held e request store after _ run before =>
    exact (keeps ctx).perform held request store (.changed e) after run before
  | unset _ run before => exact unset before run
  | @reached ctx e h => exact (keeps ctx).fits h.conforms.fits

theorem Obtained.checked {schema : Schema} {e : Entity} (h : Obtained schema e) :
    e.Checked schema :=
  h.keeps (P := fun schema => (·.Checked schema)) Entity.checked_keeps fun before run =>
    before.unset run

/-- The identifier of an entity whose type takes identifiers of its own is under the type's name. -/
theorem Entity.Checked.under {schema : Schema} {e : Entity} (h : e.Checked schema) (name : String)
    (identified : (e.type schema).idField = some name)
    (declared : Field.identifier name (e.type schema).typeName ∈ (e.type schema).fields) {s : String}
    (given : e.identifier? schema = some s) :
    ∃ id, Identifier.parse? s = some id ∧ id.Under (e.type schema).typeName := by
  rw [identifier?, identified, Option.bind_some, string?, get?] at given
  have absent : Table.get? e.extras name = none := h.apart.get?_extras declared
  rw [absent, Option.or_none] at given
  obtain ⟨value, held, shown⟩ := Option.bind_eq_some_iff.1 given
  have passed : (Validator.identifierOf (e.type schema).typeName).check value = .ok () :=
    h.valid _ declared rfl value held
  obtain ⟨id, rfl, named, under⟩ := (Validator.identifierOf_check _ value).1 passed
  obtain rfl := Option.some.inj shown
  exact ⟨id, Identifier.parse?_eq_some_iff.2 ⟨named, rfl⟩, under⟩

theorem Identifier.Under.typeName_eq {typeName : String} {id : Identifier} (h : id.Under typeName)
    (stops : Validator.begins (typeName ++ "-") id.typeName = false) : id.typeName = typeName := by
  have hyphen : (typeName ++ "-").toList = typeName.toList ++ ['-'] := String.toList_append
  rcases h with same | longer | further
  · exact same
  · rw [longer, Validator.begins_iff.2 (List.prefix_refl _)] at stops
    cases stops
  · -- two hyphens begin with one
    have begun : Validator.begins (typeName ++ "-") id.typeName = true := by
      refine Validator.begins_iff.2 (List.IsPrefix.trans ?_ (Validator.begins_iff.1 further))
      rw [hyphen]
      exact ⟨['-'], by simp [Identifier.separator]⟩
    rw [begun] at stops
    cases stops

namespace Catalog

theorem identifies (extension : TypeKey → EntityType) {e : Entity}
    (own : e.typeKey = groupingKey ∨ e.typeKey = objectKey) :
    let type := e.type (schema extension)
    type.idField = some "id" ∧ Field.identifier "id" type.typeName ∈ type.fields := by
  rcases own with grouping | object
  · have type : e.type (schema extension) = groupingType := by
      rw [Entity.type, grouping]
      rfl
    rw [type]
    exact ⟨rfl, by simp [groupingType]⟩
  · have type : e.type (schema extension) = objectType := by
      rw [Entity.type, object]
      rfl
    rw [type]
    exact ⟨rfl, by simp [objectType]⟩

/-- **Identifiers are under the names of their types.** The validator for a name lets pass the
texts of identifiers under the name. So the identifier of a Grouping or an Object is read, and its
name is the type's unless that is followed by a hyphen in it. -/
theorem obtained_under (extension : TypeKey → EntityType) :
    (∀ typeName value, (Validator.identifierOf typeName).check value = .ok () ↔
      ∃ id : Identifier, value = .string id.text ∧ id.typeName ≠ "" ∧ id.Under typeName) ∧
    ∀ e, Obtained (schema extension) e → e.typeKey = groupingKey ∨ e.typeKey = objectKey →
      ∀ s, e.identifier? (schema extension) = some s →
        ∃ id, Identifier.parse? s = some id ∧ id.Under (e.type (schema extension)).typeName ∧
          (Validator.begins ((e.type (schema extension)).typeName ++ "-") id.typeName = false →
            id.typeName = (e.type (schema extension)).typeName) := by
  refine ⟨Validator.identifierOf_check, ?_⟩
  intro e obtained own s given
  obtain ⟨identified, declared⟩ := identifies extension own
  obtain ⟨id, read, under⟩ := obtained.checked.under "id" identified declared given
  exact ⟨id, read, under, under.typeName_eq⟩

/-- An object whose identifier goes on behind the type's name. -/
def splitObject : Entity where
  typeKey := objectKey
  values := [("id", .string "object--x--00000000-0000-4000-8000-000000000001")]
  extras := []

theorem splitObject_obtained : Obtained (schema fun _ => objectType) splitObject := by
  obtain ⟨after, run⟩ : ∃ after, (Request.perform Request.bareContext splitObject
      (.ofMapping objectKey splitObject.values)).run.run {} = (.ok (.made splitObject), after) :=
    ⟨_, rfl⟩
  exact .made run

theorem splitObject_under :
    ∃ id, Identifier.parse? "object--x--00000000-0000-4000-8000-000000000001" = some id ∧
      id.Under "object" := by
  obtain ⟨id, read, under, -⟩ := (obtained_under fun _ => objectType).2 splitObject
    splitObject_obtained (.inr rfl) "object--x--00000000-0000-4000-8000-000000000001" rfl
  exact ⟨id, read, under⟩

/-- Its identifier passes the validator and is read, but is of another name than `object`. -/
theorem splitObject_misnamed :
    Obtained (schema fun _ => objectType) splitObject ∧ splitObject.typeKey = objectKey ∧
    (splitObject.type (schema fun _ => objectType)).typeName = "object" ∧
    ∃ s id, splitObject.identifier? (schema fun _ => objectType) = some s ∧
      (Validator.identifierOf "object").check (.string s) = .ok () ∧
      Identifier.parse? s = some id ∧ id.typeName = "object--x" ∧
      ∀ uuid : Uuid, s ≠ (Identifier.mk "object" uuid).text := by
  refine ⟨splitObject_obtained, rfl, rfl, "object--x--00000000-0000-4000-8000-000000000001",
    ⟨"object--x", Uuid.ofNat 0x0000000000004000_8000000000000001⟩, rfl, rfl, by decide, rfl, ?_⟩
  intro uuid written
  have named : (Identifier.mk "object" uuid).typeName ≠ "" := by simp
  have read := Identifier.parse?_eq_some_iff.2 ⟨named, written⟩
  have other : (Identifier.parse? "object--x--00000000-0000-4000-8000-000000000001").map
      (·.typeName) = some "object--x" := by decide
  rw [read] at other
  have same : "object" = "object--x" := Option.some.inj other
  exact absurd same (by decide)

end Catalog

end Dossier
