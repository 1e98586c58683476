import TimeSeries.Block.Decoder
import TimeSeries.Block.Encoder
import TimeSeries.Proofs.Bits.Reading

/-!
# Reading the fields of a point

What a reading takes off the front of the bits and what it makes of them is stated as a relation,
`BlockDecoder.Reads`, which composes along the steps of a reading.  Each part of a point, the change
of the delta and the difference of the value, is read back from its own fields.

A window of differing bits is sound when it leaves at least one bit.  A value survives the cut to a
window that leaves out only zeros of its difference (`ValueWindow.Spans`), which both the smallest
window around the difference and any earlier window that covers it do.

Main statement: `reads_next` says that a point is read back from its fields relative to the link in
front of it, together with the link behind it.
-/

set_option autoImplicit false

namespace TimeSeries

/-- The bits of some fields. -/
def fieldBits (fields : List BitField) : List Bool :=
  fields.flatMap fun field => bitsOf field.width field.value

theorem fieldBits_append (first second : List BitField) :
    fieldBits (first ++ second) = fieldBits first ++ fieldBits second :=
  List.flatMap_append

theorem fieldBits_cons (field : BitField) (fields : List BitField) :
    fieldBits (field :: fields) = bitsOf field.width field.value ++ fieldBits fields := rfl

theorem fieldBits_singleton (field : BitField) :
    fieldBits [field] = bitsOf field.width field.value := List.append_nil _

/-- Written fields add their bits at the end. -/
theorem bits_writeFields (writer : BitWriter) (fields : List BitField) :
    (BlockEncoder.writeFields writer fields).bits = writer.bits ++ fieldBits fields := by
  induction fields generalizing writer with
  | nil => simp [BlockEncoder.writeFields, fieldBits]
  | cons field fields ih =>
      have onward : BlockEncoder.writeFields writer (field :: fields)
          = BlockEncoder.writeFields (writer.write field.width field.value) fields := rfl
      rw [onward, ih, BitWriter.bits_write, List.append_assoc]
      rfl

/-! ## Windows of differing bits -/

namespace ValueWindow

/-- The window leaves at least one bit. -/
def Sound (window : ValueWindow) : Prop := window.leading + window.trailing < 64

/-- All that the window leaves out of a difference is zeros. -/
structure Spans (window : ValueWindow) (difference : UInt64) : Prop where
  low : 2 ^ window.trailing ∣ difference.toNat
  high : difference.toNat < 2 ^ (64 - window.leading)

theorem two_pow_trailingZeros_dvd (bound number : Nat) :
    2 ^ trailingZeros bound number ∣ number := by
  induction bound generalizing number with
  | zero => exact Nat.one_dvd number
  | succ bound ih =>
      unfold trailingZeros
      split
      case isTrue even =>
          rw [Nat.pow_succ]
          calc 2 ^ trailingZeros bound (number / 2) * 2
              ∣ number / 2 * 2 := Nat.mul_dvd_mul_right (ih (number / 2)) 2
            _ = number := Nat.div_mul_cancel (Nat.dvd_of_mod_eq_zero even)
      case isFalse odd => exact Nat.one_dvd number

variable {difference : UInt64}

theorem toNat_ne_zero (differs : difference ≠ 0) : difference.toNat ≠ 0 := by
  intro zero
  exact differs (UInt64.toNat_inj.mp zero)

/-- Around a difference of which some bit is set, neither end can take more than that bit leaves. -/
theorem trailingZeros_le_log2 (differs : difference ≠ 0) :
    trailingZeros 64 difference.toNat ≤ difference.toNat.log2 := by
  have set_somewhere := toNat_ne_zero differs
  rw [Nat.le_log2 set_somewhere]
  exact Nat.le_of_dvd (Nat.pos_of_ne_zero set_somewhere) (two_pow_trailingZeros_dvd 64 _)

theorem log2_le (difference : UInt64) : difference.toNat.log2 ≤ 63 := by
  by_cases zero : difference.toNat = 0
  · rw [zero]
    decide
  · exact Nat.le_of_lt_succ ((Nat.log2_lt zero).mpr difference.toNat_lt)

theorem leading_around_le (difference : UInt64) :
    (around difference).leading ≤ 63 - difference.toNat.log2 := Nat.min_le_left _ _

theorem leading_around_lt (difference : UInt64) : (around difference).leading < 32 :=
  Nat.lt_of_le_of_lt (Nat.min_le_right _ _) (by decide)

theorem sound_around (differs : difference ≠ 0) : (around difference).Sound := by
  have low := trailingZeros_le_log2 differs
  have high := leading_around_le difference
  have bound := log2_le difference
  have trailing : (around difference).trailing = trailingZeros 64 difference.toNat := rfl
  unfold Sound
  omega

theorem spans_around (difference : UInt64) : (around difference).Spans difference where
  low := two_pow_trailingZeros_dvd 64 difference.toNat
  high := by
    have high := leading_around_le difference
    have bound := log2_le difference
    calc difference.toNat
        < 2 ^ (difference.toNat.log2 + 1) := Nat.lt_log2_self
      _ ≤ 2 ^ (64 - (around difference).leading) :=
          Nat.pow_le_pow_right (by decide) (by omega)

/-- A window that covers another spans what that one spans. -/
theorem Spans.of_covers {held wanted : ValueWindow} (covers : held.covers wanted = true)
    (spans : wanted.Spans difference) : held.Spans difference := by
  simp only [ValueWindow.covers, Bool.and_eq_true, decide_eq_true_eq] at covers
  obtain ⟨⟨_, leading⟩, trailing⟩ := covers
  refine ⟨Nat.dvd_trans (Nat.pow_dvd_pow 2 trailing) spans.low, ?_⟩
  exact Nat.lt_of_lt_of_le spans.high (Nat.pow_le_pow_right (by decide) (by omega))

/-- What is cut out by a window fits in as many bits as the window has. -/
theorem Spans.cut_lt {window : ValueWindow} (sound : window.Sound)
    (spans : window.Spans difference) : (window.cut difference).value < 2 ^ window.width := by
  unfold Sound at sound
  have width : 64 - window.leading = window.trailing + window.width := by
    unfold ValueWindow.width
    omega
  have high := spans.high
  rw [width, Nat.pow_add] at high
  rw [cut, Nat.shiftRight_eq_div_pow]
  exact Nat.div_lt_of_lt_mul high

/-- What was cut out, moved back to its place, is the difference. -/
theorem Spans.ofNat_cut {window : ValueWindow} (spans : window.Spans difference) :
    UInt64.ofNat ((window.cut difference).value <<< window.trailing) = difference := by
  rw [cut, Nat.shiftRight_eq_div_pow, Nat.shiftLeft_eq, Nat.div_mul_cancel spans.low,
    UInt64.ofNat_toNat]

end ValueWindow

/-! ## Readings -/

namespace BlockDecoder

/-- Wherever the given bits stand in front, the reading takes just them and yields the value. -/
def Reads {α : Type} (reading : Reading α) (bits : List Bool) (value : α) : Prop :=
  ∀ (reader : BitReader) (rest : List Bool), reader.Shows (bits ++ rest) →
    ∃ next, reading reader = .ok (value, next) ∧ next.Shows rest

variable {α β : Type}

theorem Reads.pure (value : α) : Reads (Pure.pure value) [] value :=
  fun reader _ shown => ⟨reader, rfl, shown⟩

theorem Reads.bind {first : Reading α} {second : α → Reading β} {bits moreBits : List Bool}
    {value : α} {result : β} (reads : Reads first bits value)
    (more : Reads (second value) moreBits result) :
    Reads (first >>= second) (bits ++ moreBits) result := by
  intro reader rest shown
  rw [List.append_assoc] at shown
  obtain ⟨middle, done, onward⟩ := reads reader _ shown
  obtain ⟨last, finished, behind⟩ := more middle rest onward
  refine ⟨last, ?_, behind⟩
  show (first reader >>= fun pair => second pair.1 pair.2) = _
  rw [done]
  exact finished

/-- A reading that ends with what is made of a value takes no further bits. -/
theorem Reads.map {first : Reading α} {bits : List Bool} {value : α} (result : α → β)
    (reads : Reads first bits value) :
    Reads (first >>= fun value => Pure.pure (result value)) bits (result value) := by
  have composed : Reads (first >>= fun value => Pure.pure (result value)) (bits ++ [])
      (result value) := by
    refine Reads.bind reads ?_
    exact Reads.pure (result value)
  rwa [List.append_nil] at composed

theorem reads_field {width number : Nat} (fits : number < 2 ^ width) :
    Reads (readField width) (bitsOf width number) number := by
  intro reader rest shown
  obtain ⟨next, read, onward⟩ := shown.read fits
  exact ⟨next, by simp only [readField, read], onward⟩

theorem reads_bit (bit : Bool) : Reads readBit [bit] bit := by
  have fits : bit.toNat < 2 ^ 1 := by cases bit <;> decide
  have read : Reads readBit (bitsOf 1 bit.toNat) (bit.toNat == 1) :=
    Reads.map (fun number => number == 1) (reads_field fits)
  rw [bitsOf_toNat] at read
  cases bit <;> exact read

/-- A reading that starts with a bit takes it and goes on by what it says. -/
theorem Reads.bit {second : Bool → Reading β} {bits : List Bool} {result : β} {bit : Bool}
    (more : Reads (second bit) bits result) :
    Reads (readBit >>= second) (bit :: bits) result :=
  Reads.bind (reads_bit bit) more

/-! ## The parts of a point -/

/-- A number in a field, moved by an offset so that it is not negative. -/
theorem reads_offsetField {width : Nat} {offset : Int} (change : Int64)
    (above : -offset ≤ change.toInt) (fits : (change.toInt + offset).toNat < 2 ^ width) :
    Reads (readField width >>= fun number => Pure.pure (Int64.ofInt ((number : Int) - offset)))
      (bitsOf width (change.toInt + offset).toNat) change := by
  have nonneg : 0 ≤ change.toInt + offset := by omega
  have read := Reads.map (fun number : Nat => Int64.ofInt ((number : Int) - offset))
    (reads_field fits)
  rwa [Int.toNat_of_nonneg nonneg, Int.add_sub_cancel, Int64.ofInt_toInt] at read

/-- A change of the delta is read back from its fields. -/
theorem reads_deltaChange (change : Int64) :
    Reads readDeltaChange (fieldBits (deltaFields change)) change := by
  unfold readDeltaChange deltaFields
  by_cases zero : change.toInt = 0
  · have same : change = 0 := Int64.toInt_inj.mp zero
    simp only [if_pos zero]
    subst same
    show Reads _ [false] 0
    exact Reads.bit (Reads.pure 0)
  simp only [if_neg zero]
  by_cases near : -63 ≤ change.toInt ∧ change.toInt ≤ 64
  · rw [if_pos near, fieldBits_cons, fieldBits_singleton]
    show Reads _ (true :: false :: bitsOf 7 _) change
    exact Reads.bit (Reads.bit (reads_offsetField change near.1 (by omega)))
  rw [if_neg near]
  by_cases middle : -255 ≤ change.toInt ∧ change.toInt ≤ 256
  · rw [if_pos middle, fieldBits_cons, fieldBits_singleton]
    show Reads _ (true :: true :: false :: bitsOf 9 _) change
    exact Reads.bit (Reads.bit (Reads.bit (reads_offsetField change middle.1 (by omega))))
  rw [if_neg middle]
  by_cases far : -2047 ≤ change.toInt ∧ change.toInt ≤ 2048
  · rw [if_pos far, fieldBits_cons, fieldBits_singleton]
    show Reads _ (true :: true :: true :: false :: bitsOf 12 _) change
    exact Reads.bit (Reads.bit (Reads.bit (Reads.bit
      (reads_offsetField change far.1 (by omega)))))
  · have read := Reads.map (fun number => (UInt64.ofNat number).toInt64)
      (reads_field change.toUInt64.toNat_lt)
    rw [UInt64.ofNat_toNat, Int64.toInt64_toUInt64] at read
    rw [if_neg far, fieldBits_cons, fieldBits_singleton]
    show Reads _ (true :: true :: true :: true :: bitsOf 64 _) change
    exact Reads.bit (Reads.bit (Reads.bit (Reads.bit read)))

/-- A sound window whose leading zeros fit in their field is read back. -/
theorem reads_window {window : ValueWindow} (sound : window.Sound)
    (leading : window.leading < 32) :
    Reads readWindow (fieldBits [⟨5, window.leading⟩, ⟨6, window.width - 1⟩]) window := by
  unfold ValueWindow.Sound at sound
  have width : window.width - 1 + 1 = 64 - window.leading - window.trailing := by
    unfold ValueWindow.width
    omega
  have fits : window.width - 1 < 2 ^ 6 := by
    unfold ValueWindow.width
    omega
  have narrow : ¬ 64 < window.leading + (window.width - 1 + 1) := by omega
  have trailing : 64 - (window.leading + (window.width - 1 + 1)) = window.trailing := by omega
  rw [fieldBits_cons, fieldBits_singleton, readWindow]
  refine Reads.bind (reads_field leading) ?_
  rw [← List.append_nil (bitsOf 6 _)]
  refine Reads.bind (reads_field fits) ?_
  rw [if_neg narrow, trailing]
  exact Reads.pure window

/-- The differing bits are read back when the window in use spans them. -/
theorem reads_cut {window : ValueWindow} {difference : UInt64} (sound : window.Sound)
    (spans : window.Spans difference) :
    Reads (readField window.width >>= fun meaningful =>
        Pure.pure (UInt64.ofNat (meaningful <<< window.trailing), window))
      (fieldBits [window.cut difference]) (difference, window) := by
  have read := Reads.map (fun meaningful => (UInt64.ofNat (meaningful <<< window.trailing), window))
    (reads_field (spans.cut_lt sound))
  rw [spans.ofNat_cut] at read
  rw [fieldBits_singleton]
  exact read

/-- A difference of values is read back from its fields, with the window behind it. -/
theorem reads_difference {window : ValueWindow} (sound : window.Sound) (difference : UInt64) :
    Reads (readDifference window) (fieldBits (differenceFields window difference).1)
      (difference, (differenceFields window difference).2) := by
  unfold readDifference differenceFields
  by_cases same : difference = 0
  · rw [if_pos same, same]
    show Reads _ [false] (0, window)
    exact Reads.bit (Reads.pure _)
  rw [if_neg same]
  by_cases covers : window.covers (ValueWindow.around difference) = true
  · simp only [if_pos covers]
    rw [fieldBits_cons]
    show Reads _ (true :: false :: ([] ++ _)) _
    have spans := (ValueWindow.spans_around difference).of_covers covers
    exact Reads.bit (Reads.bit (Reads.bind (Reads.pure window) (reads_cut sound spans)))
  · simp only [if_neg covers]
    have sound_around := ValueWindow.sound_around same
    show Reads _ (true :: true :: (fieldBits [⟨5, _⟩, ⟨6, _⟩] ++ fieldBits [_])) _
    refine Reads.bit (Reads.bit ?_)
    refine Reads.bind (reads_window sound_around (ValueWindow.leading_around_lt difference)) ?_
    exact reads_cut sound_around (ValueWindow.spans_around difference)

/-! ## Points -/

/-- The first point is read back from its fields. -/
theorem reads_first (point : Point) :
    Reads readFirst (fieldBits (Link.firstFields point)) point := by
  have value := Reads.map
    (fun bits => Point.mk (UInt64.ofNat point.timestamp.toUInt64.toNat).toInt64
      ⟨UInt64.ofNat bits⟩)
    (reads_field point.value.bits.toNat_lt)
  simp only [UInt64.ofNat_toNat, Int64.toInt64_toUInt64] at value
  rw [Link.firstFields, fieldBits_cons, fieldBits_singleton, readFirst]
  refine Reads.bind (reads_field point.timestamp.toUInt64.toNat_lt) ?_
  simpa only [UInt64.ofNat_toNat, Int64.toInt64_toUInt64] using value

/-- A point is read back from its fields, with the link behind it. -/
theorem reads_next {link : Link} (sound : link.window.Sound) (point : Point) :
    Reads (readNext link) (fieldBits (link.fields point)) (point, link.follow point) := by
  have delta : link.delta + (link.deltaTo point - link.delta) = link.deltaTo point := by
    rw [Int64.add_comm, Int64.sub_add_cancel]
  have timestamp : link.timestamp + link.deltaTo point = point.timestamp := by
    rw [Link.deltaTo, Int64.add_comm, Int64.sub_add_cancel]
  have bits : link.bits ^^^ link.differenceTo point = point.value.bits := by
    rw [Link.differenceTo, UInt64.xor_comm, UInt64.xor_assoc, UInt64.xor_self, UInt64.xor_zero]
  rw [Link.fields, fieldBits_append, readNext]
  refine Reads.bind (reads_deltaChange _) ?_
  rw [← List.append_nil (fieldBits (differenceFields _ _).1)]
  refine Reads.bind (reads_difference sound (link.differenceTo point)) ?_
  simp only [delta, timestamp, bits]
  exact Reads.pure (point, link.follow point)

end BlockDecoder

/-- The link behind a point has a sound window when the link in front of it has one. -/
theorem Link.sound_follow {link : Link} (sound : link.window.Sound) (point : Point) :
    (link.follow point).window.Sound := by
  show (differenceFields link.window (link.differenceTo point)).2.Sound
  unfold differenceFields
  split
  case isTrue => exact sound
  case isFalse differs =>
      simp only
      split
      case isTrue => exact sound
      case isFalse => exact ValueWindow.sound_around differs

theorem Link.sound_ofFirst (point : Point) : (Link.ofFirst point).window.Sound := by
  show 0 + 0 < 64
  decide

end TimeSeries
