import Dossier.Construction.Entity
import Dossier.Json.Leaf
import Dossier.Proofs.Timestamps
import Dossier.Value.Json

/-!
# The round trip of timestamps

A timestamp is read back from its text, on its own, as a document and in a field of an
entity, if its year has four digits, and is refused if not (`Timestamp.text_reread`).
Texts of both forms are read as timestamps of other years: one form has signed years,
and an offset may lead out of the first or the last year of four digits
(`Timestamp.strayYears_refused`).
-/

namespace Dossier

/-- What a field of timestamps makes of a text, be it of a single value or of an item of a list. -/
theorem Field.coerceKind_timestamp {f : Field} (kind : f.kind = .leaf .timestamp) (ctx : Context)
    (build : Builder) (owner : EntityType) (segment s : String) (store : Store) :
    f.coerceKind ctx build owner segment (.string s) store =
      match Timestamp.parse? s with
      | some t => (.ok (.timestamp t, []), store)
      | none => (.error (.invalidProperty owner.name f.name .notATimestamp), store) := by
  unfold coerceKind
  simp only [kind, LeafKind.coerce, LeafKind.coerceTimestamp]
  cases Timestamp.parse? s <;> rfl

namespace Timestamp

/-- **Timestamps of four-digit years are stable.** The text of a timestamp is read as the timestamp
if its year lies in 0 to 9999, and is refused otherwise. So it is with the document that
it is written as, and in an entity: a field, or an item of its list, reads what its value is written
as as the value itself, or refuses it. -/
theorem text_reread (t : Timestamp) :
    (parse t.text =
      if 0 ≤ t.date.year ∧ t.date.year ≤ 9999 then .ok t else .error (.timestamp t.text)) ∧
    (ofJson? t.toJson = if 0 ≤ t.date.year ∧ t.date.year ≤ 9999 then some t else none) ∧
    ∀ (ctx : Context) (build : Builder) (owner : EntityType) (f : Field) (segment : String)
      (store : Store), f.kind = .leaf .timestamp →
        f.coerceKind ctx build owner segment
            (Value.ofJson ((Value.timestamp t).toJson ctx.schema)) store =
          if 0 ≤ t.date.year ∧ t.date.year ≤ 9999 then (.ok (.timestamp t, []), store)
          else (.error (.invalidProperty owner.name f.name .notATimestamp), store) := by
  have read := parse?_text_eq t
  refine ⟨?_, read, ?_⟩
  · by_cases dated : 0 ≤ t.date.year ∧ t.date.year ≤ 9999
    · simp only [parse, read, if_pos dated]
    · simp only [parse, read, if_neg dated]
  · intro ctx build owner f segment store kind
    have written : Value.ofJson ((Value.timestamp t).toJson ctx.schema) = .string t.text := rfl
    rw [written, Field.coerceKind_timestamp kind, read]
    by_cases dated : 0 ≤ t.date.year ∧ t.date.year ≤ 9999
    · simp only [if_pos dated]
    · simp only [if_neg dated]

/-- A leap second that was counted west of Greenwich. -/
def leapSecond : Timestamp where
  date := ⟨2017, 1, 1, epoch.date.month_pos, epoch.date.month_le, epoch.date.day_pos, by decide⟩
  hour := 0
  minute := 59
  second := 60
  milli := 999
  hour_lt := epoch.hour_lt
  minute_lt := by decide
  second_le := by decide
  milli_lt := by decide
  year_bounds := by decide

/-- It is cut to milliseconds, and then read back, on its own and in a field. -/
theorem leapSecond_reread :
    parse "2016-12-31T23:59:60.9999-01:00" = .ok leapSecond ∧
    parse leapSecond.text = .ok leapSecond ∧
    ∀ (ctx : Context) (store : Store),
      (Field.leaf "modified" .timestamp).coerceKind ctx ctx.build (ctx.typeOf ⟨"Grouping"⟩)
          "modified" (Value.ofJson ((Value.timestamp leapSecond).toJson ctx.schema)) store =
        (.ok (.timestamp leapSecond, []), store) := by
  obtain ⟨read, -, stored⟩ := text_reread leapSecond
  exact ⟨rfl, read, fun ctx store => stored ctx _ _ _ _ store rfl⟩

/-- A text is read as a timestamp whose own text is refused. -/
def Strays (s : String) : Prop := ∃ t, parse s = .ok t ∧ parse t.text = .error (.timestamp t.text)

/-- Texts of years beyond four digits, signed or by their offset. -/
theorem strayYears_refused :
    Strays "+10000-01-01T00:00:00" ∧ Strays "9999-12-31T23:59:59-01:00" ∧
      Strays "0000-01-01T00:00:00+01:00" :=
  ⟨⟨_, rfl, rfl⟩, ⟨_, rfl, rfl⟩, ⟨_, rfl, rfl⟩⟩

end Timestamp

end Dossier
