import Mathlib.Data.List.Induction
import Mathlib.Data.Nat.Digits.Defs
import TimeSeries.Proofs.Text.Words
import TimeSeries.Text.Numeral

/-!
# The texts that write numbers

The grammars of numbers are relations between a text and the number that it writes: digits in the
decimal system (`WritesNat`), integers with an optional sign (`WritesInt`), decimal numbers with a
point and a power of ten (`WritesDecimal`), and sample values (`WritesValue`), which are decimal
numbers or named values with an optional sign.

Main statements: each reader finds exactly the number that a text writes, and none if it writes
none (`readNat?_eq_some_iff`, `readInt?_eq_some_iff`, `readTimestamp?_eq_some_iff`,
`readUnsignedDecimal?_eq_some_iff`, `readValue?_eq_some_iff`).
-/

set_option autoImplicit false

namespace TimeSeries.Text

/-! ## Digits -/

/-- One or more decimal digits, the most significant first, write the number. -/
structure WritesNat (digits : List Char) (number : Nat) : Prop where
  filled : digits ≠ []
  decimal : ∀ digit ∈ digits, isDigit digit = true
  value : Nat.ofDigits 10 (digits.reverse.map digitValue) = number

/-- Digits that are read from the left have their value in the decimal system. -/
theorem natOfDigits_eq_ofDigits (digits : List Char) :
    natOfDigits digits 0 = Nat.ofDigits 10 (digits.reverse.map digitValue) := by
  induction digits using List.reverseRecOn with
  | nil => rfl
  | append_singleton front last ih =>
      rw [natOfDigits_append, ih, List.reverse_append, List.reverse_singleton,
        List.singleton_append, List.map_cons, Nat.ofDigits_cons, natOfDigits, List.foldl_cons,
        List.foldl_nil, Nat.add_comm]

theorem WritesNat.natOfDigits_eq {digits : List Char} {number : Nat}
    (writes : WritesNat digits number) : natOfDigits digits 0 = number := by
  rw [natOfDigits_eq_ofDigits, writes.value]

theorem readNat?_eq_some_iff {digits : List Char} {number : Nat} :
    readNat? digits = some number ↔ WritesNat digits number := by
  rw [readNat?]
  constructor
  · intro read
    split at read
    case isTrue => cases read
    case isFalse fits =>
      simp only [Bool.or_eq_true, List.isEmpty_iff, Bool.not_eq_true', not_or, Bool.not_eq_false,
        List.all_eq_true] at fits
      exact ⟨fits.1, fits.2, by rw [← natOfDigits_eq_ofDigits, Option.some.inj read]⟩
  · intro writes
    have fits : ¬(digits.isEmpty || !digits.all isDigit) = true := by
      simp only [Bool.or_eq_true, List.isEmpty_iff, Bool.not_eq_true', not_or, Bool.not_eq_false,
        List.all_eq_true]
      exact ⟨writes.filled, writes.decimal⟩
    rw [if_neg fits, writes.natOfDigits_eq]

/-! ## Integers -/

/-- Digits with an optional sign in front write the integer. -/
inductive WritesInt : List Char → Int → Prop
  | unsigned {digits : List Char} {number : Nat} (writes : WritesNat digits number) :
      WritesInt digits number
  | plus {digits : List Char} {number : Nat} (writes : WritesNat digits number) :
      WritesInt ('+' :: digits) number
  | minus {digits : List Char} {number : Nat} (writes : WritesNat digits number) :
      WritesInt ('-' :: digits) (-number)

/-- A text that starts with something else has no sign. -/
theorem takeSign_cons {first : Char} (rest : List Char) (minus : first ≠ '-') (plus : first ≠ '+') :
    takeSign (first :: rest) = (false, first :: rest) := by
  unfold takeSign
  split
  case h_1 same => exact absurd (List.cons.inj same).1 minus
  case h_2 same => exact absurd (List.cons.inj same).1 plus
  case h_3 => rfl

/-- No digit is a sign. -/
theorem takeSign_of_writesNat {digits : List Char} {number : Nat}
    (writes : WritesNat digits number) : takeSign digits = (false, digits) := by
  cases digits with
  | nil => rfl
  | cons first rest =>
      have digit := writes.decimal first List.mem_cons_self
      refine takeSign_cons rest ?_ ?_
      · rintro rfl
        exact absurd digit (by decide)
      · rintro rfl
        exact absurd digit (by decide)

/-- The digits behind an optional sign are read as the integer that they write with it. -/
theorem signed_eq_some_iff {chars : List Char} {number : Int} :
    ((readNat? (takeSign chars).2).map fun number =>
        if (takeSign chars).1 then -(number : Int) else number) = some number
      ↔ WritesInt chars number := by
  simp only [Option.map_eq_some_iff, Option.bind_eq_bind, Option.bind_eq_some_iff, Option.pure_def,
    Option.some.injEq, exists_exists_and_eq_and]
  constructor
  · rintro ⟨magnitude, read, rfl⟩
    have writes := readNat?_eq_some_iff.mp read
    unfold takeSign at writes ⊢
    split at writes
    · exact .minus writes
    · exact .plus writes
    · exact .unsigned writes
  · intro writes
    cases writes with
    | unsigned writes =>
        rw [takeSign_of_writesNat writes]
        exact ⟨_, readNat?_eq_some_iff.mpr writes, rfl⟩
    | plus writes => exact ⟨_, readNat?_eq_some_iff.mpr writes, rfl⟩
    | minus writes => exact ⟨_, readNat?_eq_some_iff.mpr writes, rfl⟩

theorem readInt?_eq_some_iff {text : String} {number : Int} :
    readInt? text = some number ↔ WritesInt text.toList number :=
  signed_eq_some_iff

/-- The timestamps that can be read are the integers that can be and are in range. -/
theorem readTimestamp?_eq_some_iff {text : String} {timestamp : Timestamp} :
    readTimestamp? text = some timestamp ↔ WritesInt text.toList timestamp.toInt := by
  rw [readTimestamp?, Option.bind_eq_some_iff]
  constructor
  · rintro ⟨number, read, inRange⟩
    rw [Timestamp.ofInt?_eq_some_iff.mp inRange]
    exact readInt?_eq_some_iff.mp read
  · intro writes
    exact ⟨_, readInt?_eq_some_iff.mpr writes, Timestamp.ofInt?_eq_some_iff.mpr rfl⟩

/-! ## Decimal numbers -/

/-- Nothing, or the letter `e` and an integer, write the power of ten. -/
inductive WritesExponent : List Char → Int → Prop
  | absent : WritesExponent [] 0
  | present {letter : Char} {chars : List Char} {exponent : Int}
      (marks : letter = 'e' ∨ letter = 'E') (writes : WritesInt chars exponent) :
      WritesExponent (letter :: chars) exponent

theorem readExponent?_eq_some_iff {chars : List Char} {exponent : Int} :
    readExponent? chars = some exponent ↔ WritesExponent chars exponent := by
  cases chars with
  | nil =>
      constructor
      · intro read
        cases read
        exact .absent
      · intro writes
        cases writes
        rfl
  | cons letter rest =>
      rw [readExponent?]
      constructor
      · intro read
        split at read
        case isTrue marks => exact .present marks (signed_eq_some_iff.mp read)
        case isFalse => cases read
      · intro writes
        cases writes with
        | present marks writes =>
            rw [if_pos marks]
            exact signed_eq_some_iff.mpr writes

/-- Decimal digits, with a point before, among or after them, and a power of ten, write the digits
times that power. -/
inductive WritesDecimal : List Char → Nat → Int → Prop
  | whole {whole tail : List Char} {digits : Nat} {exponent : Int}
      (writes : WritesNat whole digits) (power : WritesExponent tail exponent) :
      WritesDecimal (whole ++ tail) digits exponent
  | pointed {whole fraction tail : List Char} {digits : Nat} {exponent : Int}
      (writes : WritesNat (whole ++ fraction) digits) (power : WritesExponent tail exponent) :
      WritesDecimal (whole ++ '.' :: (fraction ++ tail)) digits (exponent - fraction.length)

/-- The power of ten does not start with a digit or a point. -/
theorem WritesExponent.pointless {tail : List Char} {exponent : Int}
    (writes : WritesExponent tail exponent) (rest : List Char) : tail ≠ '.' :: rest := by
  cases writes with
  | absent => simp
  | present marks _ => rcases marks with rfl | rfl <;> simp

theorem WritesExponent.stops {tail : List Char} {exponent : Int}
    (writes : WritesExponent tail exponent) : Stops isDigit tail := by
  cases writes with
  | absent => exact stops_nil
  | present marks _ => rcases marks with rfl | rfl <;> exact stops_cons.mpr (by decide)

section

variable {negative : Bool} {whole fraction tail : List Char}

theorem readUnsignedDecimal?_whole (decimal : ∀ digit ∈ whole, isDigit digit = true)
    (stops : Stops isDigit tail) (pointless : ∀ rest, tail ≠ '.' :: rest) :
    readUnsignedDecimal? negative (whole ++ tail)
      = if whole = [] then none
        else (readExponent? tail).map (⟨negative, natOfDigits whole 0, ·⟩) := by
  rw [readUnsignedDecimal?, takeWhile_append_of_stops decimal stops,
    dropWhile_append_of_stops decimal stops]
  split
  case h_1 fraction behind parts =>
    split at parts
    case h_1 => exact absurd rfl (pointless _)
    case h_2 =>
      cases parts
      by_cases empty : whole = []
      · simp [empty]
      · cases readExponent? tail <;> simp [empty]

theorem readUnsignedDecimal?_pointed (decimal : ∀ digit ∈ whole ++ fraction, isDigit digit = true)
    (stops : Stops isDigit tail) :
    readUnsignedDecimal? negative (whole ++ '.' :: (fraction ++ tail))
      = if whole ++ fraction = [] then none
        else (readExponent? tail).map
          (⟨negative, natOfDigits (whole ++ fraction) 0, · - fraction.length⟩) := by
  have first : ∀ digit ∈ whole, isDigit digit = true := fun digit member =>
    decimal digit (List.mem_append_left _ member)
  have second : ∀ digit ∈ fraction, isDigit digit = true := fun digit member =>
    decimal digit (List.mem_append_right _ member)
  have point : Stops isDigit ('.' :: (fraction ++ tail)) := stops_cons.mpr (by decide)
  rw [readUnsignedDecimal?, takeWhile_append_of_stops first point,
    dropWhile_append_of_stops first point]
  simp only [takeWhile_append_of_stops second stops, dropWhile_append_of_stops second stops]
  by_cases empty : whole ++ fraction = []
  · obtain ⟨rfl, rfl⟩ := List.append_eq_nil_iff.mp empty
    rfl
  · have some : ¬(whole.isEmpty && fraction.isEmpty) = true := by simpa using empty
    rw [if_neg some, if_neg empty]
    cases readExponent? tail <;> rfl

end

theorem readUnsignedDecimal?_eq_some_iff {negative : Bool} {chars : List Char}
    {decimal : Decimal} :
    readUnsignedDecimal? negative chars = some decimal
      ↔ decimal.negative = negative ∧ WritesDecimal chars decimal.digits decimal.exponent := by
  constructor
  · intro read
    have first : ∀ digit ∈ chars.takeWhile isDigit, isDigit digit = true :=
      fun digit member => List.mem_takeWhile_imp member
    have stops := stops_dropWhile isDigit chars
    rw [← List.takeWhile_append_dropWhile (p := isDigit) (l := chars)] at read ⊢
    generalize chars.takeWhile isDigit = front at *
    generalize chars.dropWhile isDigit = behind at *
    by_cases pointed : ∃ rest, behind = '.' :: rest
    · obtain ⟨rest, rfl⟩ := pointed
      have second : ∀ digit ∈ rest.takeWhile isDigit, isDigit digit = true :=
        fun digit member => List.mem_takeWhile_imp member
      have ends := stops_dropWhile isDigit rest
      rw [← List.takeWhile_append_dropWhile (p := isDigit) (l := rest)] at read ⊢
      generalize rest.takeWhile isDigit = fraction at *
      generalize rest.dropWhile isDigit = tail at *
      have both : ∀ digit ∈ front ++ fraction, isDigit digit = true := by
        intro digit member
        rcases List.mem_append.mp member with here | there
        · exact first digit here
        · exact second digit there
      rw [readUnsignedDecimal?_pointed both ends] at read
      split at read
      case isTrue => cases read
      case isFalse filled =>
        obtain ⟨exponent, power, rfl⟩ := Option.map_eq_some_iff.mp read
        exact ⟨rfl, .pointed ⟨filled, both, (natOfDigits_eq_ofDigits _).symm⟩
          (readExponent?_eq_some_iff.mp power)⟩
    · rw [readUnsignedDecimal?_whole first stops (fun rest same => pointed ⟨rest, same⟩)] at read
      split at read
      case isTrue => cases read
      case isFalse filled =>
        obtain ⟨exponent, power, rfl⟩ := Option.map_eq_some_iff.mp read
        exact ⟨rfl, .whole ⟨filled, first, (natOfDigits_eq_ofDigits _).symm⟩
          (readExponent?_eq_some_iff.mp power)⟩
  · obtain ⟨sign, digits, exponent⟩ := decimal
    rintro ⟨rfl, writes⟩
    cases writes with
    | whole writes power =>
        rw [readUnsignedDecimal?_whole writes.decimal power.stops power.pointless,
          if_neg writes.filled, readExponent?_eq_some_iff.mpr power, writes.natOfDigits_eq]
        rfl
    | pointed writes power =>
        rw [readUnsignedDecimal?_pointed writes.decimal power.stops, if_neg writes.filled,
          readExponent?_eq_some_iff.mpr power, writes.natOfDigits_eq]
        rfl

/-! ## Sample values -/

/-- A named value or a decimal number, without a sign, writes the value. -/
inductive WritesMagnitude : List Char → Binary64 → Prop
  | infinity {word : List Char}
      (name : word.map lowerLetter = "inf".toList ∨ word.map lowerLetter = "infinity".toList) :
      WritesMagnitude word .infinity
  | notANumber {word : List Char} (name : word.map lowerLetter = "nan".toList) :
      WritesMagnitude word .notANumber
  | decimal {chars : List Char} {digits : Nat} {exponent : Int}
      (writes : WritesDecimal chars digits exponent) :
      WritesMagnitude chars (nearest digits exponent)

/-- A magnitude with an optional sign in front writes the value. -/
inductive WritesValue : List Char → Binary64 → Prop
  | unsigned {chars : List Char} {value : Binary64} (writes : WritesMagnitude chars value) :
      WritesValue chars value
  | plus {chars : List Char} {value : Binary64} (writes : WritesMagnitude chars value) :
      WritesValue ('+' :: chars) value
  | minus {chars : List Char} {value : Binary64} (writes : WritesMagnitude chars value) :
      WritesValue ('-' :: chars) (-value)

/-- What starts a decimal number. -/
theorem WritesDecimal.exists_cons {chars : List Char} {digits : Nat} {exponent : Int}
    (writes : WritesDecimal chars digits exponent) :
    ∃ first rest, chars = first :: rest ∧ (isDigit first = true ∨ first = '.') := by
  cases writes with
  | @whole whole tail _ _ writes _ =>
      cases whole with
      | nil => exact absurd rfl writes.filled
      | cons first rest => exact ⟨first, rest ++ tail, rfl, .inl (writes.decimal first (by simp))⟩
  | @pointed whole fraction tail _ _ writes _ =>
      cases whole with
      | nil => exact ⟨'.', fraction ++ tail, rfl, .inr rfl⟩
      | cons first rest => exact ⟨first, _, rfl, .inl (writes.decimal first (by simp))⟩

theorem namedValue?_eq_some_iff {word : List Char} {value : Binary64} :
    namedValue? word = some value
      ↔ (word.map lowerLetter = "inf".toList ∨ word.map lowerLetter = "infinity".toList)
          ∧ value = .infinity
        ∨ word.map lowerLetter = "nan".toList ∧ value = .notANumber := by
  have named (text : String) :
      String.ofList (word.map lowerLetter) = text ↔ word.map lowerLetter = text.toList := by
    rw [← String.toList_inj, String.toList_ofList]
  simp only [namedValue?, named]
  constructor
  · intro read
    split at read
    case isTrue name => exact .inl ⟨name, (Option.some.inj read).symm⟩
    case isFalse =>
      split at read
      case isTrue name => exact .inr ⟨name, (Option.some.inj read).symm⟩
      case isFalse => cases read
  · rintro (⟨name, rfl⟩ | ⟨name, rfl⟩)
    · rw [if_pos name]
    · rw [if_neg (by simp [name]), if_pos name]

/-- The names are not decimal numbers: they start with letters. -/
theorem namedValue?_of_writesDecimal {chars : List Char} {digits : Nat} {exponent : Int}
    (writes : WritesDecimal chars digits exponent) : namedValue? chars = none := by
  obtain ⟨first, rest, rfl, start⟩ := writes.exists_cons
  have small : lowerLetter first = first := by
    have low : ¬('A' ≤ first ∧ first ≤ 'Z') := by
      rintro ⟨above, _⟩
      rcases start with digit | rfl
      · simp only [isDigit, Bool.and_eq_true, decide_eq_true_eq] at digit
        exact absurd (Char.le_trans above digit.2) (by decide)
      · exact absurd above (by decide)
    rw [lowerLetter, if_neg low]
  rw [Option.eq_none_iff_forall_ne_some]
  intro value read
  have letters : first = 'i' ∨ first = 'n' := by
    rcases namedValue?_eq_some_iff.mp read with ⟨name | name, _⟩ | ⟨name, _⟩ <;>
      rw [List.map_cons, small] at name
    · exact .inl (List.cons.inj name).1
    · exact .inl (List.cons.inj name).1
    · exact .inr (List.cons.inj name).1
  rcases letters with rfl | rfl <;> revert start <;> decide

/-- A magnitude does not start with a sign. -/
theorem takeSign_of_writesMagnitude {chars : List Char} {magnitude : Binary64}
    (writes : WritesMagnitude chars magnitude) : takeSign chars = (false, chars) := by
  have start : ∃ first rest, chars = first :: rest ∧ (lowerLetter first = 'i'
      ∨ lowerLetter first = 'n' ∨ isDigit first = true ∨ first = '.') := by
    cases writes with
    | infinity name =>
        cases chars with
        | nil => rcases name with name | name <;> cases name
        | cons first rest =>
            rcases name with name | name <;> exact ⟨first, rest, rfl, .inl (List.cons.inj name).1⟩
    | notANumber name =>
        cases chars with
        | nil => cases name
        | cons first rest => exact ⟨first, rest, rfl, .inr (.inl (List.cons.inj name).1)⟩
    | decimal writes =>
        obtain ⟨first, rest, same, start⟩ := writes.exists_cons
        exact ⟨first, rest, same, .inr (.inr start)⟩
  obtain ⟨first, rest, rfl, start⟩ := start
  refine takeSign_cons rest ?_ ?_
  · rintro rfl
    exact absurd start (by decide)
  · rintro rfl
    exact absurd start (by decide)

/-- What is read behind a sign is a magnitude with that sign. -/
theorem readMagnitude_eq_some_iff {negative : Bool} {chars : List Char} {value : Binary64} :
    (match namedValue? chars with
      | some value => some (if negative then -value else value)
      | none => (readUnsignedDecimal? negative chars).map Decimal.toBinary64) = some value
      ↔ ∃ magnitude, WritesMagnitude chars magnitude
        ∧ value = if negative then -magnitude else magnitude := by
  constructor
  · intro read
    split at read
    case h_1 named found =>
      refine ⟨named, ?_, (Option.some.inj read).symm⟩
      rcases namedValue?_eq_some_iff.mp found with ⟨name, rfl⟩ | ⟨name, rfl⟩
      · exact .infinity name
      · exact .notANumber name
    case h_2 =>
      obtain ⟨decimal, found, rfl⟩ := Option.map_eq_some_iff.mp read
      obtain ⟨rfl, writes⟩ := readUnsignedDecimal?_eq_some_iff.mp found
      exact ⟨_, .decimal writes, rfl⟩
  · rintro ⟨magnitude, writes, rfl⟩
    cases writes with
    | infinity name => rw [namedValue?_eq_some_iff.mpr (.inl ⟨name, rfl⟩)]
    | notANumber name => rw [namedValue?_eq_some_iff.mpr (.inr ⟨name, rfl⟩)]
    | @decimal digits exponent writes =>
        have read : readUnsignedDecimal? negative chars = some ⟨negative, digits, exponent⟩ :=
          readUnsignedDecimal?_eq_some_iff.mpr ⟨rfl, writes⟩
        rw [namedValue?_of_writesDecimal writes, read]
        rfl

theorem readValue?_eq_some_iff {text : String} {value : Binary64} :
    readValue? text = some value ↔ WritesValue text.toList value := by
  have read : readValue? text = some value
      ↔ ∃ magnitude, WritesMagnitude (takeSign text.toList).2 magnitude
        ∧ value = if (takeSign text.toList).1 then -magnitude else magnitude :=
    readMagnitude_eq_some_iff
  rw [read]
  generalize text.toList = chars
  constructor
  · rintro ⟨magnitude, writes, rfl⟩
    unfold takeSign at writes ⊢
    split at writes
    · exact .minus writes
    · exact .plus writes
    · exact .unsigned writes
  · intro writes
    cases writes with
    | unsigned writes =>
        rw [takeSign_of_writesMagnitude writes]
        exact ⟨value, writes, rfl⟩
    | plus writes => exact ⟨value, writes, rfl⟩
    | minus writes => exact ⟨_, writes, rfl⟩

end TimeSeries.Text
