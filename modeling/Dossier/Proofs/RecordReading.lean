import Dossier.Proofs.Failure

/-!
# Reading records

A record of a related object may hold a relationship, an identifier to refer to, and a payload,
which is the rest of it. What is wrong with the first two is told before anything is built.
Then a reference comes of an identifier without a payload, or of one that was asked for, and
everything else builds the payload (`RelatedObject.ofMappingAs_outcome`). A payload is dropped
only where a reference was asked for: presented as inline, a record is no reference as soon as it
has one.
-/

namespace Dossier.RelatedObject

variable {ctx : Context} {build : Builder} {type : TypeKey} {record : Mapping}
  {shown : Presentation}

/-- If there is a relationship, it is a text. -/
def RelationshipReads (record : Mapping) : Prop :=
  ∀ raw, record.get? relationshipKey = some raw → raw.string?.isSome

/-- If there is an identifier to refer to, it is a text that spells one. -/
def IdrefReads (record : Mapping) : Prop :=
  ∀ raw, record.get? idrefKey = some raw →
    ∃ idref, raw.string? = some idref ∧ (Identifier.parse? idref).isSome

theorem relationshipOf_ok (reads : RelationshipReads record) :
    relationshipOf record = .ok ((record.get? relationshipKey).bind (·.string?)) := by
  unfold relationshipOf
  cases found : record.get? relationshipKey with
  | none => rfl
  | some raw =>
    have text := reads raw found
    cases raw with
    | string s => rfl
    | _ => exact absurd text (by simp [Value.string?])

theorem relationshipOf_error (unread : ¬RelationshipReads record) :
    relationshipOf record =
      .error (.invalidProperty "RelatedObject" relationshipKey .notAString) := by
  simp only [RelationshipReads, Classical.not_forall] at unread
  obtain ⟨raw, found, noText⟩ := unread
  unfold relationshipOf
  rw [found]
  cases raw with
  | string s => exact absurd rfl noText
  | _ => rfl

theorem idrefOf_ok (reads : IdrefReads record) :
    idrefOf record = .ok ((record.get? idrefKey).bind (·.string?)) := by
  unfold idrefOf
  cases found : record.get? idrefKey with
  | none => rfl
  | some raw =>
    obtain ⟨idref, text, parsed⟩ := reads raw found
    have kept : raw.string?.filter (fun s => (Identifier.parse? s).isSome) = some idref :=
      Option.filter_eq_some_iff.2 ⟨text, parsed⟩
    dsimp only
    rw [kept, Option.bind_some, text]

theorem idrefOf_error (unread : ¬IdrefReads record) :
    idrefOf record = .error (.invalidProperty "RelatedObject" idrefKey .notAnIdentifier) := by
  simp only [IdrefReads, Classical.not_forall] at unread
  obtain ⟨raw, found, noIdentifier⟩ := unread
  have dropped : raw.string?.filter (fun s => (Identifier.parse? s).isSome) = none := by
    refine Option.filter_eq_none_iff.2 fun idref text parsed => ?_
    exact noIdentifier ⟨idref, text, by simpa using parsed⟩
  unfold idrefOf
  rw [found]
  dsimp only
  rw [dropped]

/-! ## The whole record -/

/-- What a record is read as whose two keys can be read. -/
theorem ofRecord_eq (relationship : RelationshipReads record) (idref : IdrefReads record) :
    ofRecord build type record shown =
      let related := (record.get? relationshipKey).bind (·.string?)
      match (record.get? idrefKey).bind (·.string?) with
      | some idref =>
        if payloadOf record = [] ∨ shown = .byReference then pure (byReference idref related)
        else (inline · related) <$> build type (payloadOf record)
      | none =>
        if payloadOf record = [] then Build.fail (.missingProperties "RelatedObject" [idrefKey])
        else (inline · related) <$> build type (payloadOf record) := by
  rw [ofRecord, relationshipOf_ok relationship, idrefOf_ok idref]
  cases (record.get? idrefKey).bind (·.string?) <;>
    simp only [Build.ofExcept, pure_bind, map_eq_pure_bind]

/-- A record with a relationship that is no text, or else an identifier that is none, is refused. -/
theorem ofRecord_error {e : EntityError}
    (refused : relationshipOf record = .error e ∨
      RelationshipReads record ∧ idrefOf record = .error e) :
    ofRecord build type record shown = Build.fail e := by
  rcases refused with first | ⟨relationship, second⟩
  · rw [ofRecord, first]
    rfl
  · rw [ofRecord, relationshipOf_ok relationship, second]
    rfl

section

variable {store : Store}

theorem ofMappingAs_refused {e : EntityError} (refused : relationshipOf record = .error e ∨
      RelationshipReads record ∧ idrefOf record = .error e) :
    (ofMappingAs ctx type record shown).run.run store = (.error e, store) := by
  rw [ofMappingAs, ofRecord_error refused]
  rfl

theorem ofMappingAs_byReference (relationship : RelationshipReads record)
    (reads : IdrefReads record) {idref : String}
    (named : (record.get? idrefKey).bind (·.string?) = some idref)
    (alone : payloadOf record = [] ∨ shown = .byReference) :
    (ofMappingAs ctx type record shown).run.run store =
      (.ok (byReference idref ((record.get? relationshipKey).bind (·.string?))), store) := by
  rw [ofMappingAs, ofRecord_eq relationship reads, named]
  simp only [if_pos alone]
  rfl

theorem ofMappingAs_inline (relationship : RelationshipReads record) (reads : IdrefReads record)
    (payload : payloadOf record ≠ [])
    (asked : (record.get? idrefKey).bind (·.string?) = none ∨ shown = .inline) :
    (ofMappingAs ctx type record shown).run.run store =
      ((inline · ((record.get? relationshipKey).bind (·.string?))) <$>
        Entity.ofMapping ctx type (payloadOf record)).run.run store := by
  rw [ofMappingAs, ofRecord_eq relationship reads, Entity.ofMapping, ← Build.finish_map]
  cases named : (record.get? idrefKey).bind (·.string?) with
  | none => simp only [if_neg payload]
  | some idref =>
    obtain rfl : shown = .inline := asked.resolve_left (by simp [named])
    have built : ¬(payloadOf record = [] ∨ Presentation.inline = .byReference) := by simp [payload]
    simp only [if_neg built]

theorem ofMappingAs_missing (relationship : RelationshipReads record) (reads : IdrefReads record)
    (unnamed : (record.get? idrefKey).bind (·.string?) = none) (nothing : payloadOf record = []) :
    (ofMappingAs ctx type record shown).run.run store =
      (.error (.missingProperties "RelatedObject" [idrefKey]), store) := by
  rw [ofMappingAs, ofRecord_eq relationship reads, unnamed]
  simp only [if_pos nothing]
  rfl

/-- What comes of a record is a reference only if it holds an identifier that it was read for. -/
theorem named_of_not_inline {r : RelatedObject} {after : Store}
    (run : (ofMappingAs ctx type record shown).run.run store = (.ok r, after))
    (reference : r.isInline = false) :
    RelationshipReads record ∧ IdrefReads record ∧
      ((record.get? idrefKey).bind (·.string?)).isSome ∧
      (payloadOf record = [] ∨ shown = .byReference) := by
  have relationship : RelationshipReads record := by
    refine Classical.byContradiction fun unread => ?_
    rw [ofMappingAs_refused (.inl (relationshipOf_error unread))] at run
    exact absurd (Prod.mk.inj run).1 (by simp)
  have idref : IdrefReads record := by
    refine Classical.byContradiction fun unread => ?_
    rw [ofMappingAs_refused (.inr ⟨relationship, idrefOf_error unread⟩)] at run
    exact absurd (Prod.mk.inj run).1 (by simp)
  -- nothing that is built is a reference
  have notBuilt : ¬(payloadOf record ≠ [] ∧
      ((record.get? idrefKey).bind (·.string?) = none ∨ shown = .inline)) := by
    rintro ⟨payload, asked⟩
    rw [ofMappingAs_inline relationship idref payload asked] at run
    have embeds : Action.Ensures
        ((inline · ((record.get? relationshipKey).bind (·.string?))) <$>
          Entity.ofMapping ctx type (payloadOf record)) (·.isInline = true) :=
      .map fun _ _ _ _ => rfl
    exact absurd (embeds _ _ _ run) (by simp [reference])
  refine ⟨relationship, idref, ?_⟩
  cases named : (record.get? idrefKey).bind (·.string?) with
  | none =>
    by_cases nothing : payloadOf record = []
    · rw [ofMappingAs_missing relationship idref named nothing] at run
      exact absurd (Prod.mk.inj run).1 (by simp)
    · exact absurd ⟨nothing, .inl named⟩ notBuilt
  | some text =>
    refine ⟨rfl, ?_⟩
    by_cases nothing : payloadOf record = []
    · exact .inl nothing
    · cases shown with
      | byReference => exact .inr rfl
      | inline => exact absurd ⟨nothing, .inr rfl⟩ notBuilt

end

/-- **Reading a record.** A relationship that is no text is refused, and else an identifier to refer
to that is none, before anything is built. Otherwise exactly the records with an identifier
that have no payload, or that are presented as references, are read as references; a payload
that is not dropped for that is built, which is all that reading it does; and a record with
neither is missing an identifier. A reference is read with nothing done to the store, and if it was
asked for, or there is no payload again, any record with the same relationship and identifier
is read as the same one. Unless told, a record with an identifier is taken for a reference. -/
theorem ofMappingAs_outcome (ctx : Context) (type : TypeKey) (record : Mapping)
    (shown : Presentation) (store : Store) :
    let run := (ofMappingAs ctx type record shown).run.run store
    let payload := payloadOf record
    let relationship := (record.get? relationshipKey).bind (·.string?)
    let idref? := (record.get? idrefKey).bind (·.string?)
    (¬RelationshipReads record →
      run = (.error (.invalidProperty "RelatedObject" relationshipKey .notAString), store)) ∧
    (RelationshipReads record → ¬IdrefReads record →
      run = (.error (.invalidProperty "RelatedObject" idrefKey .notAnIdentifier), store)) ∧
    (RelationshipReads record → IdrefReads record →
      ((∃ r after, run = (.ok r, after) ∧ r.isInline = false) ↔
        idref?.isSome ∧ (payload = [] ∨ shown = .byReference)) ∧
      (∀ idref, idref? = some idref → payload = [] ∨ shown = .byReference →
        run = (.ok (byReference idref relationship), store)) ∧
      (payload ≠ [] → idref? = none ∨ shown = .inline →
        run = ((inline · relationship) <$> Entity.ofMapping ctx type payload).run.run store) ∧
      (idref? = none → payload = [] →
        run = (.error (.missingProperties "RelatedObject" [idrefKey]), store))) ∧
    (∀ r after, run = (.ok r, after) → r.isInline = false →
      ∀ other : Mapping, other.get? idrefKey = record.get? idrefKey →
        other.get? relationshipKey = record.get? relationshipKey →
        shown = .byReference ∨ payloadOf other = [] →
        ∀ store, (ofMappingAs ctx type other shown).run.run store = (.ok r, store)) ∧
    ofMapping ctx type record =
      ofMappingAs ctx type record (if record.contains idrefKey then .byReference else .inline) := by
  refine ⟨fun unread => ofMappingAs_refused (.inl (relationshipOf_error unread)),
    fun relationship unread =>
      ofMappingAs_refused (.inr ⟨relationship, idrefOf_error unread⟩),
    fun relationship idref => ⟨⟨?_, ?_⟩, ?_, ?_, ?_⟩, ?_, ?_⟩
  · rintro ⟨r, after, run, reference⟩
    exact (named_of_not_inline run reference).2.2
  · rintro ⟨present, alone⟩
    obtain ⟨text, named⟩ := Option.isSome_iff_exists.1 present
    exact ⟨_, _, ofMappingAs_byReference relationship idref named alone, rfl⟩
  · exact fun text named alone => ofMappingAs_byReference relationship idref named alone
  · exact fun payload asked => ofMappingAs_inline relationship idref payload asked
  · exact fun unnamed nothing => ofMappingAs_missing relationship idref unnamed nothing
  · intro r after run reference other sameIdref sameRelationship alone again
    obtain ⟨relationship, idref, present, was⟩ := named_of_not_inline run reference
    obtain ⟨text, named⟩ := Option.isSome_iff_exists.1 present
    rw [ofMappingAs_byReference relationship idref named was] at run
    obtain rfl := Except.ok.inj (Prod.mk.inj run).1
    -- the other record reads the same under both keys
    have relationship' : RelationshipReads other := by rwa [RelationshipReads, sameRelationship]
    have idref' : IdrefReads other := by rwa [IdrefReads, sameIdref]
    have named' : (other.get? idrefKey).bind (·.string?) = some text := by rw [sameIdref, named]
    rw [ofMappingAs_byReference relationship' idref' named' alone.symm, sameRelationship]
  · rfl

/-- A record that is presented as inline is a reference while it has no payload, and is not any more
when it has one. -/
theorem inline_with_payload :
    ((ofMappingAs Request.bareContext Catalog.objectKey
      [(idrefKey, .string "object--00000000-0000-4000-8000-000000000001")] .inline).run.run {}).1 =
        .ok (byReference "object--00000000-0000-4000-8000-000000000001" none) ∧
    ((ofMappingAs Request.bareContext Catalog.objectKey
      [(idrefKey, .string "object--00000000-0000-4000-8000-000000000001"),
        ("state", .string "seen")] .inline).run.run {}).1 =
      .ok (inline {
        typeKey := Catalog.objectKey
        values := [("id", .string "object--00000000-0000-4000-8000-000000000001"),
          ("state", .string "seen")]
        extras := [] } none) :=
  ⟨rfl, rfl⟩

end Dossier.RelatedObject
