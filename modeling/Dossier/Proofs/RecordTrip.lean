import Dossier.Proofs.Arranging
import Dossier.Proofs.Rebuilding
import Dossier.Proofs.RoundTrip

/-!
# The round trip of records

A reference is read back from its record as it was. An inline object is read back as
inline if its record can be told from a reference, with the same relationship, and
with the entity that its own canonical form is built into; that is the same entity if
nothing in it is lost in writing (`RelatedObject.ofMapping_record`). Custom
properties share their names with the keys of records, so an open type has entities
whose records are read as something else (`RelatedObject.bag_reread`).
-/

namespace Dossier

namespace Entity

/-- The context has made the entity of a mapping with distinct keys. -/
def Made (ctx : Context) (e : Entity) : Prop :=
  ∃ (type : TypeKey) (supplied : Mapping) (store after : Store), Table.Distinct supplied ∧
    (ofMapping ctx type supplied).run.run store = (.ok e, after)

/-- The context has made the entity and all that are inside. -/
def Constructed (ctx : Context) : Entity → Prop := Throughout (Made ctx)

theorem Made.arranged {ctx : Context} {e : Entity} (h : e.Made ctx) : e.Arranged ctx := by
  obtain ⟨type, supplied, store, after, keys, run⟩ := h
  exact ofMapping_arranged keys run

/-- A constructed entity is legible if it is written in full, with all that are inside. -/
theorem Constructed.legible {ctx : Context} {e : Entity} (h : e.Constructed ctx)
    (explicit : e.Throughout (·.Explicit ctx)) : e.Legible ctx :=
  (h.mono fun _ => Made.arranged).and explicit

end Entity

namespace RelatedObject

variable {ctx : Context} {type : TypeKey} {relationship : Option String}

/-- The record of a reference has the identifier, and nothing else but the relationship. -/
theorem keys_byReference (schema : Schema) (idref : String) (relationship : Option String) :
    idrefKey ∈ Table.keys ((byReference idref relationship).canonical schema) ∧
      ∀ key ∈ Table.keys ((byReference idref relationship).canonical schema),
        key = idrefKey ∨ key = relationshipKey := by
  have record : (byReference idref relationship).canonical schema = _ :=
    canonical_byReference schema idref relationship
  rw [record]
  cases relationship <;> simp [Table.keys, relationshipEntry]

/-- The record of an inline object has no identifier to refer to. -/
theorem idref_not_mem_keys {schema : Schema} {e : Entity} (recordable : e.Recordable schema)
    (relationship : Option String) :
    idrefKey ∉ Table.keys ((inline e relationship).canonical schema) := by
  have record : (inline e relationship).canonical schema = _ :=
    canonical_inline recordable relationship
  rw [record, Table.keys_append, List.mem_append, not_or]
  refine ⟨recordable.apart idrefKey (by simp), ?_⟩
  cases relationship with
  | none => exact List.not_mem_nil
  | some s =>
    show idrefKey ∉ [relationshipKey]
    decide

/-- What an inline object is written as is read as inline, with what is built of the canonical form
of its entity. -/
theorem ofMapping_inline {e : Entity} (recordable : e.Recordable ctx.schema) :
    ofMapping ctx type (Mapping.ofJson ((inline e relationship).canonical ctx.schema)) =
      (inline · relationship) <$>
        Entity.ofMapping ctx type (Mapping.ofJson (e.canonical ctx.schema)) := by
  unfold ofMapping ofMappingAs Entity.ofMapping
  rw [← Build.finish_map]
  exact congrArg (·.finish ctx) (ofRecord_inline ctx.build type recordable relationship _)

/-- **The round trip of records.** The record of a reference has `idref` and nothing else but
`relationship`, and is read back as the reference. The record of an inline object whose entity is
recordable has no `idref` and is read back as inline, with the same relationship, and with what is
built of the canonical form of the entity. For a constructed entity that is the entity itself if
it is written in full, as are all that are inside. -/
theorem ofMapping_record (ctx : Context) (type : TypeKey) (relationship : Option String) :
    (∀ idref, (Identifier.parse? idref).isSome →
      let record := (byReference idref relationship).canonical ctx.schema
      (idrefKey ∈ Table.keys record ∧
        ∀ key ∈ Table.keys record, key = idrefKey ∨ key = relationshipKey) ∧
      ∀ store, (ofMapping ctx type (Mapping.ofJson record)).run.run store =
        (.ok (byReference idref relationship), store)) ∧
    ∀ e : Entity, e.Constructed ctx → e.typeKey = type → e.Recordable ctx.schema →
      let record := (inline e relationship).canonical ctx.schema
      idrefKey ∉ Table.keys record ∧
      ofMapping ctx type (Mapping.ofJson record) = (inline · relationship) <$>
        Entity.ofMapping ctx type (Mapping.ofJson (e.canonical ctx.schema)) ∧
      (e.Throughout (·.Explicit ctx) → ∀ store, ∃ after,
        (ofMapping ctx type (Mapping.ofJson record)).run.run store =
          (.ok (inline e relationship), after)) := by
  refine ⟨?_, ?_⟩
  · intro idref wellFormed
    refine ⟨keys_byReference ctx.schema idref relationship, fun store => ?_⟩
    have read := ofRecord_byReference ctx.build type ctx.schema wellFormed relationship
    unfold ofMapping ofMappingAs
    exact @Build.finish_run_ok _ ctx _ store _ _ [] (congrFun (read _) _)
  · rintro e constructed rfl recordable
    refine ⟨idref_not_mem_keys recordable relationship, ofMapping_inline recordable, ?_⟩
    intro explicit store
    have legible := constructed.legible explicit
    -- an entity that is legible throughout is built again of what it is written as
    have rebuilds : e.Rebuilds (fun _ => True) ctx :=
      legible.rebuilds (legible.mono fun _ _ _ _ _ _ => trivial)
    obtain ⟨calls, run, -⟩ := rebuilds.back store
    have built : (Entity.ofMapping ctx e.typeKey (Mapping.ofJson (e.canonical ctx.schema))).run.run
        store = (.ok e, ctx.runHooks calls store) := by
      rw [rebuilds.read]
      exact Build.finish_run_ok run
    rw [ofMapping_inline recordable, map_eq_pure_bind]
    exact ⟨_, Action.bind_run_ok built _⟩

/-! A reference and an inline object, whose entity has another inside. -/

open Catalog in
theorem link_constructed : link.Constructed countingContext := by
  have nested : ∀ d ∈ link.nested, d = ⟨uriKey, [("value", .string "here")], []⟩ := by
    simp [link, Entity.nested, Value.entriesEntities, Value.entities]
  refine .intro ⟨objectKey, [("id", .string "object--00000000-0000-4000-8000-000000000002"),
    ("properties", .mapping [("xsi:type", .string "URIObjectType"), ("value", .string "here")])],
    {}, _, by decide, rfl⟩ fun d member => ?_
  obtain rfl := nested d member
  refine .intro ⟨uriKey, [("value", .string "here")], {}, _, by decide, rfl⟩ ?_
  simp [Entity.nested, Value.entriesEntities, Value.entities]

open Catalog in
theorem link_explicit : link.Throughout (·.Explicit countingContext) := by
  have setting := countingContext_registered.setting
  have faithful := setting.faithful rfl
  have uri : (Value.entity ⟨uriKey, [("value", .string "here")], []⟩).Dated := by
    apply Entity.dated_iff.2
    simp
  have dated : link.Dated := by
    rw [Entity.dated_iff]
    simp [link, uri]
  exact ((link_decoded.settled setting faithful).legible faithful dated).mono fun _ => And.right

open Catalog in
theorem link_recordable : link.Recordable countingContext.schema where
  apart := by decide
  nonempty := List.cons_ne_nil _ _

open Catalog in
theorem link_read :
    (∀ store, (ofMapping countingContext objectKey (Mapping.ofJson
      ((byReference "object--00000000-0000-4000-8000-000000000002" (some "has")).canonical
        countingContext.schema))).run.run store =
      (.ok (byReference "object--00000000-0000-4000-8000-000000000002" (some "has")), store)) ∧
    ∀ store, ∃ after, (ofMapping countingContext objectKey (Mapping.ofJson
      ((inline link (some "has")).canonical countingContext.schema))).run.run store =
        (.ok (inline link (some "has")), after) := by
  obtain ⟨references, inlines⟩ := ofMapping_record countingContext objectKey (some "has")
  exact ⟨(references _ rfl).2,
    (inlines link link_constructed rfl link_recordable).2.2 link_explicit⟩

/-! ## Records that are read as something else -/

def bagKey : TypeKey := ⟨"Bag"⟩

/-- A context whose only type is open. -/
def bagContext : Context where
  schema := { typeOf := fun _ =>
    { name := "Bag", typeName := "bag", isOpen := true, fields := [.text "label"] } }
  ids := .sequential
  clock := .fixed .epoch

/-- A bag with custom properties. -/
def bag (extras : Mapping) : Entity := ⟨bagKey, [], extras⟩

/-- What the record of a bag that is held inline is read as. -/
def reread (extras : Mapping) : Except EntityError RelatedObject :=
  ((ofMapping bagContext bagKey
    (Mapping.ofJson ((inline (bag extras) none).canonical bagContext.schema))).run.run {}).1

def referring : Mapping := [("idref", .string "bag--00000000-0000-4000-8000-000000000001")]

def labelled : Mapping := [("relationship", .string "has"), ("note", .string "n")]

def measured : Mapping := [("note", .string "n"), ("size", .number .nan)]

def dated : Mapping := [("seen", .timestamp .epoch)]

theorem bag_made : ∀ extras ∈ [referring, [], labelled, measured, dated],
    ((Entity.ofMapping bagContext bagKey extras).run.run {}).1 = .ok (bag extras) := by
  simp only [List.forall_mem_cons, List.not_mem_nil, false_implies, implies_true, and_true]
  exact ⟨rfl, rfl, rfl, rfl, rfl⟩

/-- Records of bags that have been made are read as something else. One has an identifier though the
bag is held inline, and is read as a reference; that of an empty bag is not read at all. A custom
property takes the place of the relationship, one that is no number is left out, and a timestamp is
read as a text. -/
theorem bag_reread :
    (∀ extras ∈ [referring, [], labelled, measured, dated],
      ((Entity.ofMapping bagContext bagKey extras).run.run {}).1 = .ok (bag extras)) ∧
    idrefKey ∈ Table.keys ((inline (bag referring) none).canonical bagContext.schema) ∧
    reread referring = .ok (byReference "bag--00000000-0000-4000-8000-000000000001" none) ∧
    reread [] = .error (.missingProperties "RelatedObject" [idrefKey]) ∧
    reread labelled = .ok (inline (bag [("note", .string "n")]) (some "has")) ∧
    reread measured = .ok (inline (bag [("note", .string "n")]) none) ∧
    reread dated = .ok (inline (bag [("seen", .string "1970-01-01T00:00:00.000Z")]) none) :=
  ⟨bag_made, by decide, rfl, rfl, rfl, rfl, rfl⟩

end RelatedObject

end Dossier
