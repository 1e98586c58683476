import TimeSeries.Downsampling
import TimeSeries.Proofs.Text.Numerals

/-!
# The texts that write downsamplings

A text spells a downsampling if, without the blanks at its ends, it is a number in decimal digits, a
unit of time, a dash and the name of an aggregator (`Downsampling.Spells`).  The number may have
zeros in front.  The period is the number times the unit, and must be a timestamp above zero, so the
same number can be too large with one unit and not with another.

Main statement: `Downsampling.parse_grammar`, that reading finds what a text spells, whatever it
spells, and that a text that spells nothing is a fault of the query.
-/

set_option autoImplicit false

namespace TimeSeries.Downsampling

/-- The units of time and their lengths in milliseconds. -/
def units : List (String × Nat) :=
  [("ms", 1), ("s", 1000), ("m", 60000), ("h", 3600000), ("d", 86400000)]

/-- The text writes buckets of so many milliseconds and the aggregator for them. -/
inductive Spells (text : String) : Nat → Aggregator → Prop
  | parts {digits : List Char} {amount length : Nat} {unit name : String} {aggregator : Aggregator}
      (parts : (Text.trim text).toList = digits ++ unit.toList ++ '-' :: name.toList)
      (number : Text.WritesNat digits amount) (measure : (unit, length) ∈ units)
      (positive : 1 ≤ amount * length) (inRange : amount * length ≤ 2 ^ 63 - 1)
      (named : Aggregator.parse name = .ok aggregator) : Spells text (amount * length) aggregator

/-! ## Units -/

theorem unitMillis?_eq_some_iff {unit : String} {length : Timestamp} :
    unitMillis? unit = some length ↔ ∃ millis, (unit, millis) ∈ units ∧ length.toInt = millis := by
  constructor
  · intro found
    unfold unitMillis? at found
    split at found
    · exact ⟨1, by decide, by cases found; rfl⟩
    · exact ⟨1000, by decide, by cases found; rfl⟩
    · exact ⟨60000, by decide, by cases found; rfl⟩
    · exact ⟨3600000, by decide, by cases found; rfl⟩
    · exact ⟨86400000, by decide, by cases found; rfl⟩
    · cases found
  · rintro ⟨millis, member, same⟩
    have known : ∃ known, unitMillis? unit = some known ∧ known.toInt = millis := by
      simp only [units, List.mem_cons, List.not_mem_nil, Prod.mk.injEq, or_false] at member
      rcases member with ⟨rfl, rfl⟩ | ⟨rfl, rfl⟩ | ⟨rfl, rfl⟩ | ⟨rfl, rfl⟩ | ⟨rfl, rfl⟩ <;>
        exact ⟨_, rfl, by decide⟩
    obtain ⟨known, found, length⟩ := known
    rw [found, Int64.toInt_inj.mp (length.trans same.symm)]

/-- A unit is neither empty nor starts with a digit, and there is no dash in it. -/
theorem unit_letters {unit : String} {length : Nat} (measure : (unit, length) ∈ units) :
    (∃ first rest, unit.toList = first :: rest ∧ Text.isDigit first = false)
      ∧ '-' ∉ unit.toList := by
  simp only [units, List.mem_cons, List.not_mem_nil, Prod.mk.injEq, or_false] at measure
  rcases measure with ⟨rfl, _⟩ | ⟨rfl, _⟩ | ⟨rfl, _⟩ | ⟨rfl, _⟩ | ⟨rfl, _⟩ <;>
    exact ⟨⟨_, _, rfl, by decide⟩, by simp⟩

theorem one_le_of_mem_units {unit : String} {length : Nat} (measure : (unit, length) ∈ units) :
    1 ≤ length := by
  have all : ∀ known ∈ units, 1 ≤ known.2 := by decide
  exact all _ measure

/-! ## Periods -/

/-- The natural numbers up to the greatest timestamp are timestamps. -/
theorem exists_toInt_eq {number : Nat} (inRange : number ≤ 2 ^ 63 - 1) :
    ∃ timestamp : Timestamp, timestamp.toInt = number :=
  ⟨Int64.ofInt number, Int64.toInt_ofInt_of_le (by omega) (by omega)⟩

/-- The periods that can be read are the numbers with a unit whose product is in range. -/
theorem periodOf?_eq_some_iff {interval : List Char} {period : Timestamp} :
    periodOf? interval = some period ↔ ∃ (digits : List Char) (unit : String) (amount length : Nat),
      interval = digits ++ unit.toList ∧ Text.WritesNat digits amount ∧ (unit, length) ∈ units
        ∧ period.toInt = (amount * length : Nat) := by
  simp only [periodOf?, Option.bind_eq_bind, Option.bind_eq_some_iff, Timestamp.mul?,
    Timestamp.ofInt?_eq_some_iff, Text.readNat?_eq_some_iff, unitMillis?_eq_some_iff]
  constructor
  · rintro ⟨amount, number, stamp, same, unit, ⟨length, measure, millis⟩, product⟩
    refine ⟨_, _, amount, length, ?_, number, measure, ?_⟩
    · rw [String.toList_ofList, List.takeWhile_append_dropWhile]
    · rw [product, same, millis, Nat.cast_mul]
  · rintro ⟨digits, unit, amount, length, rfl, number, measure, product⟩
    have stops : Text.Stops Text.isDigit unit.toList := by
      obtain ⟨⟨first, rest, letters, noDigit⟩, _⟩ := unit_letters measure
      rw [letters]
      exact Text.stops_cons.mpr noDigit
    -- No unit is shorter than a millisecond, so the number itself is in range as well.
    have most : amount * length ≤ 2 ^ 63 - 1 := by
      have above := period.toInt_lt
      omega
    have fewer : amount ≤ amount * length := Nat.le_mul_of_pos_right _ (one_le_of_mem_units measure)
    have shorter : length ≤ 2 ^ 63 - 1 := by
      have all : ∀ known ∈ units, known.2 ≤ 2 ^ 63 - 1 := by decide
      exact all _ measure
    obtain ⟨stamp, same⟩ := exists_toInt_eq (fewer.trans most)
    obtain ⟨millis, sameLength⟩ := exists_toInt_eq shorter
    rw [Text.takeWhile_append_of_stops number.decimal stops,
      Text.dropWhile_append_of_stops number.decimal stops, String.ofList_toList]
    refine ⟨amount, number, stamp, same, millis, ⟨length, measure, sameLength⟩, ?_⟩
    rw [product, same, sameLength, Nat.cast_mul]

/-! ## Texts -/

/-- What stands in front of the first dash is read as the period, and what follows it as the
name. -/
theorem parse_eq_ok_iff {text : String} {downsampling : Downsampling} :
    parse text = .ok downsampling ↔ ∃ (interval : List Char) (name : String),
      (Text.trim text).toList = interval ++ '-' :: name.toList
        ∧ '-' ∉ interval ∧ periodOf? interval = some downsampling.period
        ∧ Aggregator.parse name = .ok downsampling.aggregator := by
  rw [Text.trim, String.toList_ofList]
  generalize chars : Text.trimBlanks text.toList = trimmed
  constructor
  · intro read
    rw [parse, chars] at read
    split at read
    case h_1 => cases read
    case h_2 dash name behind =>
      obtain rfl := Text.eq_mark_of_dropWhile behind
      obtain ⟨whole, first⟩ := Text.takeWhile_dropWhile_iff.mp ⟨rfl, behind⟩
      split at read
      case h_1 => cases read
      case h_2 period found =>
        split at read
        case isFalse => cases read
        case isTrue positive =>
          cases named : Aggregator.parse (String.ofList name) with
          | error failure =>
              rw [named] at read
              cases read
          | ok aggregator =>
              rw [named] at read
              cases read
              exact ⟨_, String.ofList name, by rw [String.toList_ofList]; exact whole, first,
                found, named⟩
  · rintro ⟨interval, name, whole, first, found, named⟩
    obtain ⟨front, behind⟩ := Text.takeWhile_dropWhile_iff.mpr ⟨whole, first⟩
    rw [parse, chars, front, behind]
    simp only [found, downsampling.period_pos, String.ofList_toList, named, ↓reduceDIte]
    rfl

/-- Reading finds the downsampling that a text spells. -/
theorem parse_eq_ok_iff_spells {text : String} {downsampling : Downsampling} :
    parse text = .ok downsampling
      ↔ ∃ period : Nat, Spells text period downsampling.aggregator
        ∧ downsampling.period.toInt = period := by
  rw [parse_eq_ok_iff]
  constructor
  · rintro ⟨interval, name, whole, -, found, named⟩
    obtain ⟨digits, unit, amount, length, rfl, number, measure, product⟩ :=
      periodOf?_eq_some_iff.mp found
    have above := downsampling.period.toInt_lt
    have positive : 0 < downsampling.period.toInt :=
      Int64.lt_iff_toInt_lt.mp downsampling.period_pos
    exact ⟨amount * length, .parts whole number measure (by omega) (by omega) named, product⟩
  · rintro ⟨period, spelled, same⟩
    cases spelled with
    | @parts digits amount length unit name _ parts number measure positive inRange named =>
        refine ⟨digits ++ unit.toList, name, parts, ?_,
          periodOf?_eq_some_iff.mpr ⟨digits, unit, amount, length, rfl, number, measure, same⟩,
          named⟩
        rw [List.mem_append]
        rintro (digit | letter)
        · exact absurd (number.decimal '-' digit) (by decide)
        · exact (unit_letters measure).2 letter

/-- Whatever keeps a text from being read is a fault of the query. -/
theorem parse_failure {text : String} {failure : Failure} (failed : parse text = .error failure) :
    ∃ fault, failure = .query fault := by
  simp only [parse] at failed
  split at failed
  · exact ⟨_, (Except.error.inj failed).symm⟩
  · rename_i name _
    split at failed
    · exact ⟨_, (Except.error.inj failed).symm⟩
    · split at failed
      · cases found : Aggregator.ofName? (String.ofList name) with
        | some aggregator =>
            rw [Aggregator.parse, found] at failed
            cases failed
        | none =>
            rw [Aggregator.parse, found] at failed
            exact ⟨_, (Except.error.inj failed).symm⟩
      · exact ⟨_, (Except.error.inj failed).symm⟩

/-- A text that spells a downsampling is read as one. -/
theorem exists_ok_of_spells {text : String} {period : Nat} {aggregator : Aggregator}
    (spelled : Spells text period aggregator) :
    ∃ downsampling : Downsampling, parse text = .ok downsampling := by
  have bounds : 1 ≤ period ∧ period ≤ 2 ^ 63 - 1 := by
    cases spelled with
    | parts _ _ _ positive inRange _ => exact ⟨positive, inRange⟩
  obtain ⟨stamp, same⟩ := exists_toInt_eq bounds.2
  have positive : 0 < stamp := Int64.lt_iff_toInt_lt.mpr (by rw [same]; simp; omega)
  exact ⟨⟨stamp, aggregator, positive⟩, parse_eq_ok_iff_spells.mpr ⟨period, spelled, same⟩⟩

/-- A text is read as the downsampling that it spells.  It is read at all exactly if it spells one,
and otherwise the query is at fault. -/
theorem parse_grammar (text : String) :
    (∀ downsampling : Downsampling, parse text = .ok downsampling
        ↔ ∃ period : Nat, Spells text period downsampling.aggregator
          ∧ downsampling.period.toInt = period)
      ∧ ((∃ downsampling, parse text = .ok downsampling)
        ↔ ∃ period aggregator, Spells text period aggregator)
      ∧ ((∃ fault, parse text = .error (.query fault))
        ↔ ¬∃ period aggregator, Spells text period aggregator) := by
  have read_iff : (∃ downsampling, parse text = .ok downsampling)
      ↔ ∃ period aggregator, Spells text period aggregator := by
    constructor
    · rintro ⟨downsampling, read⟩
      obtain ⟨period, spelled, _⟩ := parse_eq_ok_iff_spells.mp read
      exact ⟨period, downsampling.aggregator, spelled⟩
    · rintro ⟨period, aggregator, spelled⟩
      exact exists_ok_of_spells spelled
  refine ⟨fun _ => parse_eq_ok_iff_spells, read_iff, ?_⟩
  rw [← read_iff]
  constructor
  · rintro ⟨fault, failed⟩ ⟨downsampling, read⟩
    rw [failed] at read
    cases read
  · intro unread
    cases result : parse text with
    | ok downsampling => exact absurd ⟨downsampling, result⟩ unread
    | error failure =>
        obtain ⟨fault, rfl⟩ := parse_failure result
        exact ⟨fault, rfl⟩

end TimeSeries.Downsampling
