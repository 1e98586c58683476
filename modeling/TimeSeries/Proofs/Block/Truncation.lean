import TimeSeries.Proofs.Block.RoundTrip
import TimeSeries.Proofs.Readers.Yields

/-!
# Truncated blocks

A block whose data lacks bytes at the end is read up to the point within which the data ends.
There the decoder reports that the block is truncated, and after that it reads nothing more.

That it notices rests on two facts.  A reading never takes missing bits for others: of bits that are
cut short it makes what it makes of all of them, or it runs out of bits (`BlockDecoder.Steady`).
And the last byte of a block holds at least one bit of a point, so that dropping bytes drops such
bits, and not only zeros that fill the last byte.

Main statement: `BlockEncoder.truncation_detected`.
-/

set_option autoImplicit false

namespace TimeSeries

/-! ## Bits that are cut short -/

namespace BitReader

/-- Any bits stand in front of some reader. -/
theorem exists_shows (bits : List Bool) :
    ∃ (reader : BitReader) (rest : List Bool), reader.Shows (bits ++ rest) := by
  have written : (bits.foldl BitWriter.push .empty).bits = bits := by
    induction bits using List.reverseRecOn with
    | nil => rfl
    | append_singleton bits bit ih =>
        rw [List.foldl_append, List.foldl_cons, List.foldl_nil, BitWriter.bits_push, ih]
  have shown := BitWriter.shows_toBytes (bits.foldl BitWriter.push .empty)
  rw [written] at shown
  exact ⟨_, _, shown⟩

/-- The remaining bits of a reader are one list. -/
theorem Shows.unique {reader : BitReader} {bits others : List Bool} (shown : reader.Shows bits)
    (otherwise : reader.Shows others) : bits = others :=
  shown.drop_bits.symm.trans otherwise.drop_bits

/-- The first reader shows the bits of the second one without the given ones at the end. -/
def Lacks (lost : List Bool) (short whole : BitReader) : Prop :=
  ∃ kept, short.Shows kept ∧ whole.Shows (kept ++ lost)

end BitReader

namespace BlockDecoder

open BitReader (Lacks)

variable {α β : Type}

/-- What comes of cut bits is what comes of all of them, and the same bits are lacking behind it;
or else the bits did not suffice. -/
def Agrees (lost : List Bool) :
    Except Malformation (α × BitReader) → Except Malformation (α × BitReader) → Prop
  | .ok (value, short), .ok (other, whole) => value = other ∧ Lacks lost short whole
  | .ok _, .error _ => False
  | .error cause, result => cause = .truncatedBlock ∨ result = .error cause

/-- The reading does not take missing bits for others. -/
def Steady (reading : Reading α) : Prop :=
  ∀ (lost : List Bool) (short whole : BitReader), Lacks lost short whole →
    Agrees lost (reading short) (reading whole)

theorem Steady.pure (value : α) : Steady (Pure.pure value) := fun _ _ _ lacks => ⟨rfl, lacks⟩

theorem Steady.throw (cause : Malformation) : Steady (throw cause : Reading α) :=
  fun _ _ _ _ => Or.inr rfl

theorem Steady.bind {first : Reading α} {second : α → Reading β} (steady : Steady first)
    (onward : ∀ value, Steady (second value)) : Steady (first >>= second) := by
  intro lost short whole lacks
  have agrees := steady lost short whole lacks
  show Agrees lost (first short >>= fun pair => second pair.1 pair.2)
    (first whole >>= fun pair => second pair.1 pair.2)
  revert agrees
  rcases first short with cause | ⟨value, shortNext⟩
  · rintro (rfl | same)
    · exact Or.inl rfl
    · rw [same]
      exact Or.inr rfl
  · rcases first whole with cause | ⟨other, wholeNext⟩
    · exact False.elim
    · rintro ⟨rfl, behind⟩
      exact onward value lost shortNext wholeNext behind

theorem steady_readField (width : Nat) : Steady (readField width) := by
  rintro lost short whole ⟨kept, shortShown, wholeShown⟩
  by_cases enough : width ≤ kept.length
  · obtain ⟨taken, behind, rfl, rfl⟩ : ∃ taken behind, kept = taken ++ behind
        ∧ taken.length = width :=
      ⟨kept.take width, kept.drop width, (List.take_append_drop width kept).symm,
        List.length_take_of_le enough⟩
    rw [List.append_assoc] at wholeShown
    obtain ⟨shortNext, shortRead, -, shortOnward⟩ := shortShown.read_append
    obtain ⟨wholeNext, wholeRead, -, wholeOnward⟩ := wholeShown.read_append
    simp only [readField, shortRead, wholeRead]
    exact ⟨rfl, behind, shortOnward, wholeOnward⟩
  · have nothing := shortShown.read_short (Nat.lt_of_not_le enough)
    simp only [readField, nothing]
    exact Or.inl rfl

theorem steady_readBit : Steady readBit :=
  (steady_readField 1).bind fun _ => Steady.pure _

theorem steady_readFirst : Steady readFirst :=
  (steady_readField 64).bind fun _ => (steady_readField 64).bind fun _ => Steady.pure _

theorem steady_readDeltaChange : Steady readDeltaChange := by
  have offset : ∀ (width : Nat) (offset : Int), Steady (readField width >>= fun number =>
      Pure.pure (Int64.ofInt ((number : Int) - offset))) :=
    fun width _ => (steady_readField width).bind fun _ => Steady.pure _
  refine steady_readBit.bind fun changed => ?_
  split
  · exact Steady.pure 0
  refine steady_readBit.bind fun beyondNear => ?_
  split
  · exact offset 7 63
  refine steady_readBit.bind fun beyondMiddle => ?_
  split
  · exact offset 9 255
  refine steady_readBit.bind fun beyondFar => ?_
  split
  · exact offset 12 2047
  · exact (steady_readField 64).bind fun _ => Steady.pure _

theorem steady_readWindow : Steady readWindow := by
  refine (steady_readField 5).bind fun leading => (steady_readField 6).bind fun length => ?_
  simp only
  split
  · exact (Steady.throw _).bind fun _ => Steady.pure _
  · exact Steady.pure _

theorem steady_readDifference (window : ValueWindow) : Steady (readDifference window) := by
  have cut : ∀ window : ValueWindow, Steady (readField window.width >>= fun meaningful =>
      Pure.pure (UInt64.ofNat (meaningful <<< window.trailing), window)) :=
    fun window => (steady_readField window.width).bind fun _ => Steady.pure _
  refine steady_readBit.bind fun differs => ?_
  split
  · exact Steady.pure _
  refine steady_readBit.bind fun isNew => ?_
  split
  · exact steady_readWindow.bind cut
  · exact (Steady.pure window).bind cut

theorem steady_readNext (link : Link) : Steady (readNext link) :=
  steady_readDeltaChange.bind fun _ =>
    (steady_readDifference link.window).bind fun _ => Steady.pure _

theorem steady_readPoint (decoder : BlockDecoder) : Steady decoder.readPoint := by
  unfold readPoint
  split
  · exact steady_readFirst.bind fun _ => Steady.pure _
  · exact steady_readNext decoder.link

/-- Where only some of its bits are left, a reading runs out of bits. -/
theorem Steady.truncated {reading : Reading α} {kept lost : List Bool} {value : α}
    {reader : BitReader} (steady : Steady reading) (reads : Reads reading (kept ++ lost) value)
    (some_lost : lost ≠ []) (shown : reader.Shows kept) :
    reading reader = .error .truncatedBlock := by
  obtain ⟨whole, rest, wholeShown⟩ := BitReader.exists_shows (kept ++ lost)
  obtain ⟨wholeNext, read, onward⟩ := reads whole rest wholeShown
  rw [List.append_assoc] at wholeShown
  have agrees := steady (lost ++ rest) reader whole ⟨kept, shown, wholeShown⟩
  rw [read] at agrees
  rcases result : reading reader with cause | ⟨found, next⟩
  · rw [result] at agrees
    rcases agrees with rfl | same
    · rfl
    · cases same
  -- The lost bits would have to be read although they stand behind all that was read.
  · rw [result] at agrees
    obtain ⟨_, left, _, behind⟩ := agrees
    have same := congrArg List.length (behind.unique onward)
    simp only [List.length_append] at same
    have := List.length_pos_iff.mpr some_lost
    omega

/-! ## Calls of a decoder -/

/-- What reading one point yields, and the decoder for the next call. -/
def call (decoder : BlockDecoder) : Option (Except Failure Point) × BlockDecoder :=
  match decoder.step with
  | .finished => (none, decoder)
  | .read point next => (some (.ok point), next)
  | .broken cause next => (some (.error (.malformed cause)), next)

theorem collects : Collects call toPoints := by
  intro decoder
  rw [toPoints]
  split <;> rename_i stepped <;> rw [call, stepped]

theorem call_of_failed {decoder : BlockDecoder} (failed : decoder.failed = true) :
    decoder.call = (none, decoder) := by
  rw [call, step, failed, Bool.true_or, if_pos rfl]

/-- The point in turn is read if all of its bits are left.  Otherwise the decoder reports that the
block is truncated and yields nothing after that. -/
theorem step_of_kept {decoder : BlockDecoder} {bits tail kept lost : List Bool} {point : Point}
    {link : Link} (fine : decoder.failed = false) (more : decoder.decoded < decoder.count)
    (reads : Reads decoder.readPoint bits (point, link)) (cut : bits ++ tail = kept ++ lost)
    (shown : decoder.reader.Shows kept) :
    (∃ behind reader, kept = bits ++ behind ∧ tail = behind ++ lost
        ∧ decoder.call = (some (.ok point),
          { decoder with reader := reader, decoded := decoder.decoded + 1, link := link })
        ∧ reader.Shows behind)
      ∨ kept.length < bits.length
        ∧ Yields call decoder [.error (.malformed .truncatedBlock)] := by
  by_cases whole : bits.length ≤ kept.length
  · obtain ⟨behind, rfl⟩ := List.prefix_of_prefix_length_le (List.prefix_append bits tail)
      (cut ▸ List.prefix_append kept lost) whole
    rw [List.append_assoc, List.append_cancel_left_eq] at cut
    obtain ⟨reader, stepped, onward⟩ := step_of_reads fine more reads shown
    exact Or.inl ⟨behind, reader, rfl, cut, by rw [call, stepped], onward⟩
  · have short := Nat.lt_of_not_le whole
    obtain ⟨missing, rfl⟩ := List.prefix_of_prefix_length_le (List.prefix_append kept lost)
      (cut ▸ List.prefix_append bits tail) (Nat.le_of_lt short)
    have some_missing : missing ≠ [] := by
      rintro rfl
      rw [List.append_nil] at short
      exact Nat.lt_irrefl _ short
    have truncated := (steady_readPoint decoder).truncated reads some_missing shown
    have called : decoder.call
        = (some (.error (.malformed .truncatedBlock)), { decoder with failed := true }) := by
      rw [call, step, fine, Bool.false_or, if_neg (by simpa using more), truncated]
    exact Or.inr ⟨short, Yields.cons called (yields_nil (call_of_failed rfl))⟩

end BlockDecoder

/-! ## Where the bits end -/

/-- Of some points, so many bits are all bits of the points that are `read` and not all of the next
one. -/
def EndsWithin (bits : List Point → List Bool) (length : Nat) (points read : List Point) : Prop :=
  ∃ next behind, points = read ++ next :: behind
    ∧ (bits read).length ≤ length ∧ length < (bits (read ++ [next])).length

theorem endsWithin_nil {bits : List Point → List Bool} {length : Nat} {point : Point}
    {points : List Point} (none_read : bits [] = []) (short : length < (bits [point]).length) :
    EndsWithin bits length (point :: points) [] := by
  refine ⟨point, points, rfl, ?_, short⟩
  rw [none_read]
  exact Nat.zero_le _

/-- One more point in front of the others brings its own bits. -/
theorem EndsWithin.cons {bits later : List Point → List Bool} {length : Nat} {point : Point}
    {points read : List Point} {front : List Bool} (within : EndsWithin later length points read)
    (joined : ∀ others, bits (point :: others) = front ++ later others) :
    EndsWithin bits (front.length + length) (point :: points) (point :: read) := by
  obtain ⟨next, behind, rfl, reached, within⟩ := within
  refine ⟨next, behind, rfl, ?_, ?_⟩
  · rw [joined, List.length_append]
    exact Nat.add_le_add_left reached _
  · rw [List.cons_append, joined, List.length_append]
    exact Nat.add_lt_add_left within _

/-- Behind its first point, a decoder reads the points whose bits are left. -/
theorem BlockDecoder.yields_of_kept {decoder : BlockDecoder} {points : List Point}
    {kept lost : List Bool} (fine : decoder.failed = false) (started : decoder.decoded ≠ 0)
    (count : decoder.count = decoder.decoded + points.length)
    (sound : decoder.link.window.Sound) (cut : decoder.link.pointBits points = kept ++ lost)
    (some_lost : lost ≠ []) (shown : decoder.reader.Shows kept) :
    ∃ read, EndsWithin decoder.link.pointBits kept.length points read
      ∧ Yields call decoder (read.map .ok ++ [.error (.malformed .truncatedBlock)]) := by
  induction points generalizing decoder kept with
  | nil => exact absurd (List.append_eq_nil_iff.mp cut.symm).2 some_lost
  | cons point points ih =>
      have reads : Reads decoder.readPoint (fieldBits (decoder.link.fields point))
          (point, decoder.link.follow point) := by
        rw [readPoint, if_neg started]
        exact reads_next sound point
      rw [Link.pointBits] at cut
      rcases step_of_kept fine (by simp [count]) reads cut shown with
        ⟨behind, reader, rfl, later, called, onward⟩ | ⟨short, yields⟩
      · have remaining : decoder.count = decoder.decoded + 1 + points.length := by
          rw [count, List.length_cons]
          omega
        obtain ⟨read, within, yields⟩ := @ih
          ⟨reader, decoder.count, decoder.decoded + 1, decoder.failed, decoder.link.follow point⟩
          behind fine (Nat.succ_ne_zero _) remaining (Link.sound_follow sound point) later onward
        rw [List.length_append]
        exact ⟨point :: read, within.cons fun _ => rfl, Yields.cons called yields⟩
      · rw [← List.append_nil (fieldBits _)] at short
        exact ⟨[], endsWithin_nil rfl short, yields⟩

/-- A block whose data is the beginning of the bits of some points, and that counts these points, is
read up to the point within which its data ends. -/
theorem Block.yields_of_kept {block : Block} {points : List Point} {lost : List Bool}
    (count : block.count = points.length) (cut : blockBits points = bitsOfBytes block.data ++ lost)
    (some_lost : lost ≠ []) :
    ∃ read, EndsWithin blockBits (bitsOfBytes block.data).length points read
      ∧ Yields BlockDecoder.call (.ofBlock block)
          (read.map .ok ++ [.error (.malformed .truncatedBlock)]) := by
  have shown := BitReader.shows_ofBytes block.data
  cases points with
  | nil => exact absurd (List.append_eq_nil_iff.mp cut.symm).2 some_lost
  | cons point points =>
      have reads : BlockDecoder.Reads (BlockDecoder.ofBlock block).readPoint
          (fieldBits (Link.firstFields point)) (point, Link.ofFirst point) :=
        (BlockDecoder.reads_first point).map fun point => (point, Link.ofFirst point)
      have more : 0 < block.count := by
        rw [count]
        exact Nat.succ_pos _
      rw [blockBits] at cut
      rcases BlockDecoder.step_of_kept rfl more reads cut shown with
        ⟨behind, reader, all, later, called, onward⟩ | ⟨short, yields⟩
      · have remaining : block.count = 0 + 1 + points.length := by
          rw [count, List.length_cons]
          omega
        obtain ⟨read, within, yields⟩ :=
          @BlockDecoder.yields_of_kept ⟨reader, block.count, 0 + 1, false, Link.ofFirst point⟩
            points behind lost rfl (Nat.succ_ne_zero _) remaining (Link.sound_ofFirst point)
            later some_lost onward
        rw [all, List.length_append]
        exact ⟨point :: read, within.cons fun _ => rfl, Yields.cons called yields⟩
      · rw [← List.append_nil (fieldBits _)] at short
        exact ⟨[], endsWithin_nil rfl short, yields⟩

/-! ## Data without its last bytes -/

/-- Without its last byte, the data of a writer lacks bits that were written. -/
theorem BitWriter.exists_lost (writer : BitWriter) {kept : Nat}
    (fewer : kept < writer.toBytes.length) :
    ∃ lost, lost ≠ [] ∧ writer.bits = bitsOfBytes (writer.toBytes.take kept) ++ lost := by
  have parts : bitsOfBytes (writer.toBytes.take kept) ++ bitsOfBytes (writer.toBytes.drop kept)
      = writer.bits ++ writer.padding := by
    rw [← bitsOfBytes_toBytes, bitsOfBytes, bitsOfBytes, bitsOfBytes, ← List.flatMap_append,
      List.take_append_drop]
  have dropped : 8 ≤ (bitsOfBytes (writer.toBytes.drop kept)).length := by
    rw [length_bitsOfBytes, List.length_drop]
    omega
  have padded : writer.padding.length < 8 := by
    have used_lt := writer.used_lt
    unfold padding
    split
    case isTrue => exact Nat.succ_pos 7
    case isFalse some_used => rw [List.length_replicate]; omega
  have shorter : (bitsOfBytes (writer.toBytes.take kept)).length < writer.bits.length := by
    have lengths := congrArg List.length parts
    simp only [List.length_append] at lengths
    omega
  obtain ⟨lost, whole⟩ := List.prefix_of_prefix_length_le (List.prefix_append _ _)
    (parts ▸ List.prefix_append writer.bits writer.padding) (Nat.le_of_lt shorter)
  refine ⟨lost, ?_, whole.symm⟩
  rintro rfl
  rw [List.append_nil] at whole
  rw [whole] at shorter
  exact Nat.lt_irrefl _ shorter

namespace BlockEncoder

/-- **Truncation is detected.**  If a block lacks bytes at the end, its points are read up to the
one within which the data ends, which is a point that the encoder had taken.  There the block is
reported as truncated, once, and nothing is read after that; so the points are not had as a
whole. -/
theorem truncation_detected (calls : List Call) {kept : Nat}
    (fewer : kept < (calls.foldl BlockEncoder.after empty).toBlock.data.length) :
    let block := (calls.foldl BlockEncoder.after empty).toBlock
    let points := (calls.foldl Intake.after .empty).points
    let truncated := { block with data := block.data.take kept }
    (∃ read, EndsWithin blockBits (8 * kept) points read
        ∧ Yields BlockDecoder.call (.ofBlock truncated)
            (read.map .ok ++ [.error (.malformed .truncatedBlock)]))
      ∧ truncated.toPoints = .error (.malformed .truncatedBlock) := by
  intro block points truncated
  have holds : (calls.foldl BlockEncoder.after empty).Holds points :=
    (follows_foldl calls follows_empty).holds
  obtain ⟨lost, some_lost, cut⟩ :=
    (calls.foldl BlockEncoder.after empty).writer.exists_lost fewer
  rw [holds.bits] at cut
  have count : truncated.count = points.length := holds.count
  obtain ⟨read, within, yields⟩ := Block.yields_of_kept count cut some_lost
  have length : (bitsOfBytes truncated.data).length = 8 * kept := by
    rw [length_bitsOfBytes]
    exact congrArg (8 * ·) (List.length_take_of_le (Nat.le_of_lt fewer))
  rw [length] at within
  exact ⟨⟨read, within, yields⟩, BlockDecoder.collects.of_yields_failure yields⟩

/-- Of two points one is refused in between, and the data ends within the value of the second. -/
theorem truncation_detected_in_value :
    let calls := [Call.add ⟨1000, ⟨1⟩⟩, .add ⟨999, ⟨2⟩⟩, .add ⟨2500, ⟨3⟩⟩, .close]
    let block := (calls.foldl BlockEncoder.after empty).toBlock
    let points := (calls.foldl Intake.after .empty).points
    let truncated := { block with data := block.data.take 18 }
    18 < block.data.length
      ∧ (∃ read, EndsWithin blockBits (8 * 18) points read
        ∧ Yields BlockDecoder.call (.ofBlock truncated)
            (read.map .ok ++ [.error (.malformed .truncatedBlock)]))
      ∧ truncated.toPoints = .error (.malformed .truncatedBlock) := by
  intro calls block points truncated
  have fewer : 18 < block.data.length := by decide +kernel
  exact ⟨fewer, truncation_detected calls fewer⟩

end BlockEncoder

end TimeSeries
