import TimeSeries.KeyRange

/-!
# The order of rows

Rows are compared byte by byte.  The bytes of a number, most significant first, have the order of
numbers, and flipping the sign bit carries the order of timestamps over to words; so the rows of one
metric are ordered by time.  The zero behind a metric name is below every byte of a name without
zeros, so rows of different metrics are ordered by name whatever their times are.

Main statements: `compare_ofPoint` gives the order of two rows, and `contains_between` says that the
range of a metric and a span holds exactly the keys of that metric within that span.
-/

set_option autoImplicit false

namespace TimeSeries

/-! ## Bytes -/

theorem compare_cons (first second : UInt8) (left right : Bytes) :
    compare (first :: left) (second :: right)
      = (compare first second).then (compare left right) := by
  show List.compareLex compare (first :: left) (second :: right) = _
  rw [List.compareLex_cons_cons]
  rfl

theorem compare_cons_self (byte : UInt8) (left right : Bytes) :
    compare (byte :: left) (byte :: right) = compare left right := by
  rw [compare_cons, show compare byte byte = .eq from Std.ReflCmp.compare_self]
  rfl

/-- A common beginning does not matter. -/
theorem compare_append (front left right : Bytes) :
    compare (front ++ left) (front ++ right) = compare left right := by
  induction front with
  | nil => rfl
  | cons byte front ih => rw [List.cons_append, List.cons_append, compare_cons_self, ih]

theorem compare_uint8 (left right : UInt8) :
    compare left right = compare left.toNat right.toNat := by
  simp only [compare, compareOfLessAndEq, UInt8.lt_iff_toNat_lt, UInt8.toNat_inj.symm]

theorem compare_nat_of_digits {base high low otherHigh otherLow : Nat} (lowFits : low < base)
    (otherFits : otherLow < base) :
    compare (base * high + low) (base * otherHigh + otherLow)
      = (compare high otherHigh).then (compare low otherLow) := by
  rcases Nat.lt_trichotomy high otherHigh with less | same | more
  · have step := Nat.mul_le_mul_left base less
    rw [Nat.mul_succ] at step
    rw [Nat.compare_eq_lt.mpr less, Nat.compare_eq_lt.mpr (by omega)]
    rfl
  · subst same
    rw [Nat.compare_eq_eq.mpr rfl]
    simp only [Ordering.then, compare, compareOfLessAndEq, Nat.add_lt_add_iff_left,
      Nat.add_left_cancel_iff]
  · have step := Nat.mul_le_mul_left base more
    rw [Nat.mul_succ] at step
    rw [Nat.compare_eq_gt.mpr more, Nat.compare_eq_gt.mpr (by omega)]
    rfl

/-- Numbers of one width, most significant byte first, are ordered as their bytes are. -/
theorem compare_ofNatBE (width left right : Nat) :
    compare (Bytes.ofNatBE width left) (Bytes.ofNatBE width right)
      = compare (left % 256 ^ width) (right % 256 ^ width) := by
  induction width with
  | zero =>
      rw [Nat.pow_zero, Nat.mod_one, Nat.mod_one]
      rfl
  | succ width ih =>
      have positive : 0 < 256 ^ width := Nat.pow_pos (by decide)
      have digit : ∀ number : Nat, (UInt8.ofNat (number / 256 ^ width % 256)).toNat
          = number / 256 ^ width % 256 := by
        intro number
        rw [UInt8.toNat_ofNat', Nat.mod_eq_of_lt (Nat.mod_lt _ (by decide))]
      have split : ∀ number : Nat, number % 256 ^ (width + 1)
          = 256 ^ width * (number / 256 ^ width % 256) + number % 256 ^ width := by
        intro number
        rw [Nat.mod_pow_succ, Nat.add_comm]
      rw [Bytes.ofNatBE, Bytes.ofNatBE, compare_cons, ih, compare_uint8, digit, digit, split,
        split, compare_nat_of_digits (Nat.mod_lt _ positive) (Nat.mod_lt _ positive)]

namespace Row

/-! ## Times -/

/-- Flipping the top bit of a word adds half the range to it, or takes it away. -/
theorem toNat_xor_signBit (word : UInt64) :
    (word ^^^ Binary64.signBit).toNat
      = if word.toNat < Binary64.signBit.toNat then word.toNat + Binary64.signBit.toNat
        else word.toNat - Binary64.signBit.toNat := by
  have bound : word.toNat < 2 ^ 64 := word.toNat_lt
  have low : (word.toNat ^^^ 2 ^ 63) % 2 ^ 63 = word.toNat % 2 ^ 63 := by
    rw [Nat.xor_mod_two_pow, Nat.mod_self, Nat.xor_zero]
  have high : (word.toNat ^^^ 2 ^ 63) / 2 ^ 63 = word.toNat / 2 ^ 63 ^^^ 1 := by
    rw [Nat.xor_div_two_pow, Nat.div_self (by decide)]
  have whole := Nat.div_add_mod (word.toNat ^^^ 2 ^ 63) (2 ^ 63)
  rw [low, high] at whole
  rw [UInt64.toNat_xor, show Binary64.signBit.toNat = 2 ^ 63 from rfl, ← whole]
  split
  case isTrue small =>
      rw [Nat.div_eq_of_lt small, Nat.mod_eq_of_lt small, Nat.add_comm]
      rfl
  case isFalse large =>
      have one : word.toNat / 2 ^ 63 = 1 := by omega
      rw [one, show (1 : Nat) ^^^ 1 = 0 from rfl]
      omega

/-- The word of a timestamp counts from the earliest timestamp. -/
theorem toNat_timeWord (timestamp : Timestamp) :
    ((timeWord timestamp).toNat : Int)
      = timestamp.toInt - (Timestamp.earliest : Timestamp).toInt := by
  have signed : timestamp.toInt = if 2 * timestamp.toUInt64.toNat < 2 ^ 64
      then (timestamp.toUInt64.toNat : Int) else timestamp.toUInt64.toNat - (2 ^ 64 : Nat) :=
    BitVec.toInt_eq_toNat_cond timestamp.toBitVec
  have bound : timestamp.toUInt64.toNat < 2 ^ 64 := timestamp.toUInt64.toNat_lt
  rw [timeWord, toNat_xor_signBit, signed, show Binary64.signBit.toNat = 2 ^ 63 from rfl,
    show (Timestamp.earliest : Timestamp).toInt = -2 ^ 63 by decide]
  split <;> split <;> omega

/-- Words of timestamps are ordered as the timestamps are. -/
theorem compare_timeWord (left right : Timestamp) :
    compare (timeWord left).toNat (timeWord right).toNat = compare left right := by
  have leftWord := toNat_timeWord left
  have rightWord := toNat_timeWord right
  have less : (timeWord left).toNat < (timeWord right).toNat ↔ left < right := by
    rw [Int64.lt_iff_toInt_lt]
    omega
  have same : (timeWord left).toNat = (timeWord right).toNat ↔ left = right := by
    rw [← Int64.toInt_inj]
    omega
  simp only [compare, compareOfLessAndEq, less, same]

theorem compare_ofWord (left right : UInt64) :
    compare (Bytes.ofWord left) (Bytes.ofWord right) = compare left.toNat right.toNat := by
  rw [Bytes.ofWord, Bytes.ofWord, compare_ofNatBE,
    Nat.mod_eq_of_lt (show left.toNat < 256 ^ 8 from left.toNat_lt),
    Nat.mod_eq_of_lt (show right.toNat < 256 ^ 8 from right.toNat_lt)]

/-! ## Rows -/

/-- The rows of one metric are ordered by time. -/
theorem compare_ofPoint_self (metric : String) (left right : Timestamp) :
    compare (ofPoint metric left) (ofPoint metric right) = compare left right := by
  rw [ofPoint, ofPoint, compare_append, compare_cons_self, compare_ofWord, compare_timeWord]

@[simp] theorem metric_ofPoint (metric : String) (timestamp : Timestamp) :
    Row.metric (ofPoint metric timestamp) = .ok metric := by
  rw [Row.metric, decode_ofPoint]
  rfl

@[simp] theorem timestamp_ofPoint (metric : String) (timestamp : Timestamp) :
    Row.timestamp (ofPoint metric timestamp) = .ok timestamp := by
  rw [Row.timestamp, decode_ofPoint]
  rfl

/-- A name without the zero character. -/
def ZeroFree (metric : String) : Prop := '\x00' ∉ metric.toList

/-- Only the zero character has a zero among its bytes. -/
theorem eq_zero_of_mem_utf8EncodeChar {char : Char}
    (member : separator ∈ String.utf8EncodeChar char) : char = '\x00' := by
  have byte : ∀ number : Nat, 0 < number → number < 256 → separator ≠ UInt8.ofNat number := by
    intro number positive small same
    have zero := congrArg UInt8.toNat same
    rw [UInt8.toNat_ofNat', Nat.mod_eq_of_lt (by omega)] at zero
    exact Nat.ne_of_lt positive zero
  have bound := char.val.toNat_lt
  simp only [String.utf8EncodeChar] at member
  split at member
  · rw [List.mem_singleton] at member
    rcases Nat.eq_zero_or_pos char.val.toNat with zero | positive
    · exact Char.ext (UInt32.toNat_inj.mp zero)
    · exact absurd member (byte _ positive (by omega))
  -- every byte of a longer form has its top bit set
  exfalso
  split at member
  · simp only [List.mem_cons, List.not_mem_nil, or_false] at member
    rcases member with member | member <;> exact byte _ (by omega) (by omega) member
  split at member
  · simp only [List.mem_cons, List.not_mem_nil, or_false] at member
    rcases member with member | member | member <;> exact byte _ (by omega) (by omega) member
  · simp only [List.mem_cons, List.not_mem_nil, or_false] at member
    rcases member with member | member | member | member <;>
      exact byte _ (by omega) (by omega) member

/-- A name without the zero character has no byte that could be taken for the end of the name. -/
theorem ZeroFree.separator_notMem {metric : String} (free : ZeroFree metric) :
    separator ∉ Text.encode metric := by
  have bytes : Text.encode metric = metric.toList.flatMap String.utf8EncodeChar := by
    rw [Text.encode, ← String.ofList_toList (s := metric), String.toByteArray_ofList,
      List.utf8Encode, String.toList_ofList]
    simp
  rw [bytes, List.mem_flatMap]
  rintro ⟨char, member, zero⟩
  rw [eq_zero_of_mem_utf8EncodeChar zero] at member
  exact free member

/-- The zero behind a name is below every byte of a longer name. -/
theorem compare_separator {byte : UInt8} (other : byte ≠ separator) :
    compare separator byte = .lt := by
  have positive : 0 < byte.toNat := by
    rcases Nat.eq_zero_or_pos byte.toNat with zero | positive
    · exact absurd (UInt8.toNat_inj.mp zero) other
    · exact positive
  rw [compare_uint8]
  exact Nat.compare_eq_lt.mpr positive

/-- Names without zeros that are followed by zeros are compared first, and then what follows. -/
theorem compare_append_separator {first second : Bytes} (left right : Bytes)
    (firstFree : separator ∉ first) (secondFree : separator ∉ second) :
    compare (first ++ separator :: left) (second ++ separator :: right)
      = (compare first second).then (compare left right) := by
  induction first generalizing second with
  | nil =>
      cases second with
      | nil => exact compare_cons_self separator left right
      | cons byte second =>
          have other : byte ≠ separator := fun same => secondFree (same ▸ List.mem_cons_self)
          rw [List.nil_append, List.cons_append, compare_cons, compare_separator other]
          rfl
  | cons byte first ih =>
      have other : byte ≠ separator := fun same => firstFree (same ▸ List.mem_cons_self)
      cases second with
      | nil =>
          rw [List.nil_append, List.cons_append, compare_cons,
            Std.OrientedCmp.gt_of_lt (compare_separator other)]
          rfl
      | cons against second =>
          rw [List.cons_append, List.cons_append, compare_cons, compare_cons,
            ih (mt (List.mem_cons_of_mem byte) firstFree)
              (mt (List.mem_cons_of_mem against) secondFree), Ordering.then_assoc]

/-- A row behind those of a metric is behind them, whatever their times are. -/
theorem compare_append_behind {first second : Bytes} (left : Bytes)
    (firstFree : separator ∉ first) (secondFree : separator ∉ second) :
    compare (first ++ separator :: left) (second ++ [separator + 1])
      = (compare first second).then .lt := by
  induction first generalizing second with
  | nil =>
      cases second with
      | nil => rfl
      | cons byte second =>
          have other : byte ≠ separator := fun same => secondFree (same ▸ List.mem_cons_self)
          rw [List.nil_append, List.cons_append, compare_cons, compare_separator other]
          rfl
  | cons byte first ih =>
      cases second with
      | nil =>
          have other : byte ≠ separator := fun same => firstFree (same ▸ List.mem_cons_self)
          have notLess : compare byte (separator + 1) ≠ .lt := by
            have positive := compare_separator other
            rw [compare_uint8, Nat.compare_eq_lt] at positive
            rw [compare_uint8, Ne, Nat.compare_eq_lt]
            exact Nat.not_lt.mpr positive
          have longer : compare (first ++ separator :: left) [] = .gt := by
            cases first <;> rfl
          rw [List.nil_append, List.cons_append, compare_cons, longer]
          cases order : compare byte (separator + 1) with
          | lt => exact absurd order notLess
          | eq => rfl
          | gt => rfl
      | cons against second =>
          rw [List.cons_append, List.cons_append, compare_cons, compare_cons,
            ih (mt (List.mem_cons_of_mem byte) firstFree)
              (mt (List.mem_cons_of_mem against) secondFree), Ordering.then_assoc]

/-- Rows are ordered by metric, and those of one metric by time. -/
theorem compare_ofPoint {metric other : String} (free : ZeroFree metric)
    (otherFree : ZeroFree other) (left right : Timestamp) :
    compare (ofPoint metric left) (ofPoint other right)
      = (compare (Text.encode metric) (Text.encode other)).then (compare left right) := by
  rw [ofPoint, ofPoint, compare_append_separator _ _ free.separator_notMem
    otherFree.separator_notMem, compare_ofWord, compare_timeWord]

theorem compare_behind {metric other : String} (free : ZeroFree metric) (otherFree : ZeroFree other)
    (timestamp : Timestamp) :
    compare (ofPoint metric timestamp) (behind other)
      = (compare (Text.encode metric) (Text.encode other)).then .lt :=
  compare_append_behind _ free.separator_notMem otherFree.separator_notMem

theorem encode_injective {metric other : String} (same : Text.encode metric = Text.encode other) :
    metric = other := by
  have read := Text.decode_encode metric
  rw [same, Text.decode_encode] at read
  exact (Except.ok.inj read).symm

end Row

/-! ## Keys -/

/-- A timestamp is in front of the one that follows another, if there is any, exactly if it is not
behind that other one. -/
theorem Timestamp.compare_succ? (last timestamp : Timestamp) :
    (match last.succ? with
      | some next => compare timestamp next
      | none => .lt) = .lt ↔ timestamp ≤ last := by
  cases following : last.succ? with
  | some next =>
      have next_eq := ofInt?_eq_some_iff.mp following
      rw [Std.compare_eq_lt, Int64.lt_iff_toInt_lt, Int64.le_iff_toInt_le, next_eq]
      omega
  | none =>
      have greatest : (latest : Timestamp).toInt = 2 ^ 63 - 1 := by decide
      have least : (earliest : Timestamp).toInt = -2 ^ 63 := by decide
      have low := last.le_toInt
      have high := timestamp.toInt_lt
      rw [succ?, ofInt?, least, greatest] at following
      split at following
      case isTrue => cases following
      case isFalse beyond =>
          refine iff_of_true rfl ?_
          rw [Int64.le_iff_toInt_le]
          omega

namespace Key

theorem compare_eq (left right : Key) :
    compare left right = (compare left.row right.row).then ((compare left.family right.family).then
      ((compare left.qualifier right.qualifier).then
        ((compare left.visibility right.visibility).then
          (compare left.timestamp right.timestamp)))) := rfl

/-- A key lies in front of the least key of a row exactly if its own row does. -/
theorem compare_ofRow_eq_lt {key : Key} {row : Bytes} :
    compare key (ofRow row) = .lt ↔ compare key.row row = .lt := by
  have text : ∀ name : String, compare name "" ≠ .lt := by
    intro name
    have least : ¬ name < "" := fun below => List.not_lt_nil _ (String.lt_iff.mp below)
    show compareOfLessAndEq name "" ≠ .lt
    rw [compareOfLessAndEq, if_neg least]
    split <;> simp
  have time : compare key.timestamp Timestamp.earliest ≠ .lt := by
    rw [Ne, Std.compare_eq_lt, Int64.not_lt]
    exact key.timestamp.minValue_le
  rw [compare_eq]
  simp only [ofRow, Ordering.then_eq_lt, text, time, and_false, or_false]

end Key

namespace KeyRange

/-- What lies in front of a key that is in front of a range is in front of the range too. -/
theorem startsAfter_of_le {range : KeyRange} {first second : Key}
    (notAfter : (compare first second).isLE = true) (front : range.startsAfter second = true) :
    range.startsAfter first = true := by
  obtain ⟨start, stop⟩ := range
  cases start with
  | unbounded => exact front
  | included start =>
      simp only [startsAfter, beq_iff_eq] at front ⊢
      exact Std.TransCmp.lt_of_isLE_of_lt notAfter front
  | excluded start =>
      simp only [startsAfter, bne_iff_ne, Ordering.ne_gt_iff_isLE] at front ⊢
      exact Std.TransCmp.isLE_trans notAfter front

/-- What lies behind a key that is behind a range is behind the range too. -/
theorem stopsBefore_of_le {range : KeyRange} {first second : Key}
    (notAfter : (compare first second).isLE = true) (behind : range.stopsBefore first = true) :
    range.stopsBefore second = true := by
  obtain ⟨start, stop⟩ := range
  cases stop with
  | unbounded => exact behind
  | included stop =>
      simp only [stopsBefore, beq_iff_eq] at behind ⊢
      exact Std.OrientedCmp.gt_of_lt
        (Std.TransCmp.lt_of_lt_of_isLE (Std.OrientedCmp.lt_of_gt behind) notAfter)
  | excluded stop =>
      simp only [stopsBefore, bne_iff_ne] at behind ⊢
      exact fun front => behind (Std.TransCmp.lt_of_isLE_of_lt notAfter front)

/-- The range of a metric and a span holds the keys of that metric within that span. -/
theorem contains_between {metric other : String} (free : Row.ZeroFree metric)
    (otherFree : Row.ZeroFree other) {key : Key} {timestamp : Timestamp}
    (named : key.row = Row.ofPoint other timestamp) (first last : Timestamp) :
    (between metric first last).contains key = true
      ↔ other = metric ∧ first ≤ timestamp ∧ timestamp ≤ last := by
  have starts : (between metric first last).startsAfter key = true
      ↔ (compare (Text.encode other) (Text.encode metric)).then
        (compare timestamp first) = .lt := by
    show (compare key (Key.ofRow (Row.ofPoint metric first)) == .lt) = true ↔ _
    rw [beq_iff_eq, Key.compare_ofRow_eq_lt, named, Row.compare_ofPoint otherFree free]
  have stops : (between metric first last).stopsBefore key = false
      ↔ (compare (Text.encode other) (Text.encode metric)).then
        (match last.succ? with
          | some next => compare timestamp next
          | none => .lt) = .lt := by
    show (compare key (Key.ofRow (match last.succ? with
      | some next => Row.ofPoint metric next
      | none => Row.behind metric)) != .lt) = false ↔ _
    rw [bne_eq_false_iff_eq, Key.compare_ofRow_eq_lt, named]
    cases last.succ? with
    | some next => rw [Row.compare_ofPoint otherFree free]
    | none => rw [Row.compare_behind otherFree free]
  have upTo := last.compare_succ? timestamp
  rw [contains, Bool.and_eq_true, Bool.not_eq_true', Bool.not_eq_true', stops,
    ← Bool.not_eq_true, starts]
  cases order : compare (Text.encode other) (Text.encode metric) with
  | lt =>
      refine ⟨fun inside => absurd rfl inside.1, ?_⟩
      rintro ⟨rfl, _⟩
      rw [show compare (Text.encode other) (Text.encode other) = .eq
        from Std.ReflCmp.compare_self] at order
      cases order
  | eq =>
      have same := Row.encode_injective (Std.LawfulEqCmp.eq_of_compare order)
      rw [Ordering.eq_then, Ordering.eq_then, upTo, Std.compare_eq_lt, Int64.not_lt]
      exact ⟨fun inside => ⟨same, inside⟩, And.right⟩
  | gt =>
      refine ⟨fun inside => absurd inside.2 (by simp), ?_⟩
      rintro ⟨rfl, _⟩
      rw [show compare (Text.encode other) (Text.encode other) = .eq
        from Std.ReflCmp.compare_self] at order
      cases order

end KeyRange

end TimeSeries
