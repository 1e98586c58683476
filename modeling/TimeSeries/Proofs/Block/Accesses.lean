import TimeSeries.Proofs.Block.Truncation

/-!
# What a decoder does to its bits

The data of a block may be any bytes: a checksum says nothing about where they come from.  So it is
not enough to know what a decoder yields of bits that an encoder wrote.  What it does on the way has
to be in bounds as well: the bits it takes, the widths it asks for and the windows it moves bits by,
also within a point that turns out to be none.

A reading is a function and does not show its steps.  Here it is laid out as a script, which asks
for one field after the other and goes on by the number found, and names each window before it is
used.  Running the script is the reading (`BlockDecoder.run_script`), and following it along the
bits gives all accesses (`Script.accesses`), those of a reading that fails included.

The invariant is that the reader stands at its position in the data and that the window in use is
sound (`Confined`).  A window that was read is sound whatever numbers its two fields hold, as one
that would be too wide is refused.

Main statement: `BlockDecoder.decodes_any_bytes`.
-/

set_option autoImplicit false

namespace TimeSeries

/-! ## Widths of windows -/

/-- A sound window has a field of one bit at least and of one word at most. -/
theorem ValueWindow.Sound.width_bounds {window : ValueWindow} (sound : window.Sound) :
    1 ≤ window.width ∧ window.width ≤ 64 := by
  unfold Sound at sound
  unfold width
  omega

namespace BlockDecoder

/-! ## Scripts -/

/-- What a decoder does to its bits. -/
inductive Access where
  /-- A field was taken from a position, and its bits make a number. -/
  | field (position width number : Nat)
  /-- A field was asked for that the bits behind the position do not fill.  Nothing was taken. -/
  | refusal (position width : Nat)
  /-- A window was put to use. -/
  | window (window : ValueWindow)
  deriving DecidableEq, Repr

/-- A field lies within the data and has the bits found there, a field is refused only if it would
reach beyond the data, and a window leaves at least one bit. -/
def Access.Within (data : Bytes) : Access → Prop
  | .field position width number => 1 ≤ width ∧ width ≤ 64 ∧ position + width ≤ 8 * data.length
      ∧ number < 2 ^ width
      ∧ bitsOf width number = ((bitsOfBytes data).drop position).take width
  | .refusal position width => 1 ≤ width ∧ width ≤ 64 ∧ position ≤ 8 * data.length
      ∧ 8 * data.length < position + width
  | .window used => used.leading + used.trailing ≤ 63

/-- A reading, step by step. -/
inductive Script (α : Type) where
  | done (value : α)
  | fail (cause : Malformation)
  | field (width : Nat) (onward : Nat → Script α)
  | window (window : ValueWindow) (onward : Script α)

namespace Script

variable {α β : Type}

/-- One script after another. -/
def bind : Script α → (α → Script β) → Script β
  | .done value, next => next value
  | .fail cause, _ => .fail cause
  | .field width onward, next => .field width fun number => (onward number).bind next
  | .window used onward, next => .window used (onward.bind next)

instance : Monad Script where
  pure := .done
  bind := Script.bind

/-- The reading of a script. -/
def run : Script α → Reading α
  | .done value => pure value
  | .fail cause => throw cause
  | .field width onward => readField width >>= fun number => (onward number).run
  | .window _ onward => onward.run

/-- What is done to the bits of a reader, up to the end of the script or the first failure. -/
def accesses : Script α → BitReader → List Access
  | .done _, _ => []
  | .fail _, _ => []
  | .field width onward, reader =>
      match reader.read width with
      | some (number, next) =>
          .field reader.position width number :: (onward number).accesses next
      | none => [.refusal reader.position width]
  | .window used onward, reader => .window used :: onward.accesses reader

@[simp] theorem run_pure (value : α) : (pure value : Script α).run = pure value := rfl

@[simp] theorem run_fail (cause : Malformation) : (fail cause : Script α).run = throw cause := rfl

@[simp] theorem run_window (used : ValueWindow) (onward : Script α) :
    (window used onward).run = onward.run := rfl

@[simp] theorem run_ite (condition : Prop) [Decidable condition] (yes no : Script α) :
    (if condition then yes else no).run = if condition then yes.run else no.run := by
  split <;> rfl

@[simp] theorem run_bind (script : Script α) (next : α → Script β) :
    (script >>= next).run = script.run >>= fun value => (next value).run := by
  show (script.bind next).run = _
  induction script with
  | done value => rfl
  | fail cause => rfl
  | field width onward ih =>
      simp only [bind, run, ih, bind_assoc]
  | window used onward ih => exact ih

end Script

/-! ## The script of a point -/

def fieldScript (width : Nat) : Script Nat := .field width .done

def bitScript : Script Bool := do
  return (← fieldScript 1) == 1

def firstScript : Script Point := do
  let timestamp ← fieldScript 64
  let bits ← fieldScript 64
  return ⟨(UInt64.ofNat timestamp).toInt64, ⟨UInt64.ofNat bits⟩⟩

def deltaChangeScript : Script Int64 := do
  if !(← bitScript) then
    return 0
  if !(← bitScript) then
    return Int64.ofInt ((← fieldScript 7) - 63)
  if !(← bitScript) then
    return Int64.ofInt ((← fieldScript 9) - 255)
  if !(← bitScript) then
    return Int64.ofInt ((← fieldScript 12) - 2047)
  return (UInt64.ofNat (← fieldScript 64)).toInt64

def windowScript : Script ValueWindow := do
  let leading ← fieldScript 5
  let meaningful := (← fieldScript 6) + 1
  if 64 < leading + meaningful then
    .fail (.valueWindow leading meaningful)
  else
    return ⟨leading, 64 - (leading + meaningful)⟩

def differenceScript (window : ValueWindow) : Script (UInt64 × ValueWindow) := do
  if !(← bitScript) then
    return (0, window)
  let window ← if ← bitScript then windowScript else pure window
  let meaningful ← .window window (fieldScript window.width)
  return (UInt64.ofNat (meaningful <<< window.trailing), window)

def nextScript (link : Link) : Script (Point × Link) := do
  let change ← deltaChangeScript
  let delta := link.delta + change
  let timestamp := link.timestamp + delta
  let (difference, window) ← differenceScript link.window
  let bits := link.bits ^^^ difference
  return (⟨timestamp, ⟨bits⟩⟩, ⟨timestamp, delta, bits, window⟩)

/-- The script of the point in turn. -/
def script (decoder : BlockDecoder) : Script (Point × Link) :=
  if decoder.decoded = 0 then do
    let point ← firstScript
    return (point, .ofFirst point)
  else
    nextScript decoder.link

@[simp] theorem run_fieldScript (width : Nat) : (fieldScript width).run = readField width :=
  bind_pure (readField width)

@[simp] theorem run_bitScript : bitScript.run = readBit := by
  simp [bitScript, readBit]

@[simp] theorem run_firstScript : firstScript.run = readFirst := by
  simp [firstScript, readFirst]

@[simp] theorem run_deltaChangeScript : deltaChangeScript.run = readDeltaChange := by
  simp [deltaChangeScript, readDeltaChange]

@[simp] theorem run_windowScript : windowScript.run = readWindow := by
  have refused : ∀ (cause : Malformation) (window : ValueWindow),
      ((throw cause : Reading PUnit) >>= fun _ => pure window) = throw cause := fun _ _ => rfl
  simp only [windowScript, readWindow, Script.run_bind, run_fieldScript, Script.run_ite,
    Script.run_fail, Script.run_pure, refused]

@[simp] theorem run_differenceScript (window : ValueWindow) :
    (differenceScript window).run = readDifference window := by
  simp [differenceScript, readDifference]

@[simp] theorem run_nextScript (link : Link) : (nextScript link).run = readNext link := by
  simp [nextScript, readNext]

/-- The script of a decoder is what it does to read a point. -/
theorem run_script (decoder : BlockDecoder) : decoder.script.run = decoder.readPoint := by
  unfold script readPoint
  split
  · simp
  · exact run_nextScript decoder.link

/-! ## Confined scripts -/

/-- A window that would be too wide. -/
def TooWide (cause : Malformation) : Prop :=
  ∃ leading meaningful, cause = .valueWindow leading meaningful ∧ 64 < leading + meaningful

namespace Script

variable {α β : Type} {outcome middle : α → Prop}

/-- Whatever numbers the fields hold, all fields are of 1 to 64 bits, all windows are sound, nothing
is refused but windows that would be too wide, and the value at the end is as said. -/
def Confined (outcome : α → Prop) : Script α → Prop
  | .done value => outcome value
  | .fail cause => TooWide cause
  | .field width onward => 1 ≤ width ∧ width ≤ 64 ∧ ∀ number, (onward number).Confined outcome
  | .window used onward => used.Sound ∧ onward.Confined outcome

theorem Confined.bind {outcome : β → Prop} {script : Script α} {next : α → Script β}
    (confined : script.Confined middle)
    (onward : ∀ value, middle value → (next value).Confined outcome) :
    (script >>= next).Confined outcome := by
  show (script.bind next).Confined outcome
  induction script with
  | done value => exact onward value confined
  | fail cause => exact confined
  | field width later ih =>
      obtain ⟨some_bits, one_word, later⟩ := confined
      exact ⟨some_bits, one_word, fun number => ih number (later number)⟩
  | window used later ih => exact ⟨confined.1, ih confined.2⟩

/-- A confined script that is run at its place in the data accesses nothing beyond. -/
theorem Confined.run {script : Script α} {reader : BitReader} {data : Bytes}
    (confined : script.Confined outcome) (stands : reader.StandsIn data) :
    (∀ access ∈ script.accesses reader, access.Within data)
      ∧ ((∃ value next, script.run reader = .ok (value, next)
          ∧ outcome value ∧ next.StandsIn data)
        ∨ ∃ cause, script.run reader = .error cause
          ∧ (cause = .truncatedBlock ∨ TooWide cause)) := by
  induction script generalizing reader with
  | done value =>
      refine ⟨by simp [accesses], Or.inl ⟨value, reader, rfl, confined, stands⟩⟩
  | fail cause =>
      refine ⟨by simp [accesses], Or.inr ⟨cause, rfl, Or.inr confined⟩⟩
  | field width onward ih =>
      obtain ⟨some_bits, one_word, later⟩ := confined
      by_cases room : reader.position + width ≤ 8 * data.length
      · obtain ⟨number, next, read, fits, digits, _, standsNext⟩ := stands.read room
        obtain ⟨within, result⟩ := ih number (later number) standsNext
        have run_eq : (field width onward).run reader = (onward number).run next := by
          show (readField width reader >>= fun pair => (onward pair.1).run pair.2) = _
          simp only [readField, read]
          rfl
        rw [run_eq]
        refine ⟨?_, result⟩
        simp only [accesses, read, List.forall_mem_cons]
        exact ⟨⟨some_bits, one_word, room, fits, digits⟩, within⟩
      · have read := stands.read_beyond (Nat.lt_of_not_le room)
        refine ⟨?_, Or.inr ⟨.truncatedBlock, ?_, Or.inl rfl⟩⟩
        · simp only [accesses, read, List.forall_mem_singleton]
          exact ⟨some_bits, one_word, stands.position_le, Nat.lt_of_not_le room⟩
        · show (readField width reader >>= fun pair => (onward pair.1).run pair.2) = _
          simp only [readField, read]
          rfl
  | window used onward ih =>
      obtain ⟨within, result⟩ := ih confined.2 stands
      refine ⟨?_, result⟩
      simp only [accesses, List.forall_mem_cons]
      exact ⟨Nat.le_of_lt_succ confined.1, within⟩

end Script

/-! ### Each script is confined -/

/-- A script that may end with anything. -/
abbrev Free {α : Type} (_ : α) : Prop := True

theorem confined_fieldScript {width : Nat} (some_bits : 1 ≤ width) (one_word : width ≤ 64) :
    (fieldScript width).Confined Free :=
  ⟨some_bits, one_word, fun _ => trivial⟩

theorem confined_bitScript : bitScript.Confined Free :=
  (confined_fieldScript (Nat.le_refl 1) (by decide)).bind fun _ _ => trivial

theorem confined_firstScript : firstScript.Confined Free :=
  have word := confined_fieldScript (by decide) (Nat.le_refl 64)
  word.bind fun _ _ => word.bind fun _ _ => trivial

theorem confined_deltaChangeScript : deltaChangeScript.Confined Free := by
  have offset : ∀ (width : Nat) (offset : Int), 1 ≤ width → width ≤ 64 →
      (fieldScript width >>= fun number =>
        pure (Int64.ofInt ((number : Int) - offset))).Confined Free :=
    fun width _ some_bits one_word =>
      (confined_fieldScript some_bits one_word).bind fun _ _ => trivial
  refine confined_bitScript.bind fun changed _ => ?_
  split
  · exact trivial
  refine confined_bitScript.bind fun beyondNear _ => ?_
  split
  · exact offset 7 63 (by decide) (by decide)
  refine confined_bitScript.bind fun beyondMiddle _ => ?_
  split
  · exact offset 9 255 (by decide) (by decide)
  refine confined_bitScript.bind fun beyondFar _ => ?_
  split
  · exact offset 12 2047 (by decide) (by decide)
  · exact (confined_fieldScript (by decide) (by decide)).bind fun _ _ => trivial

/-- A window is sound whatever its fields hold, as they give the bits that it leaves, of which there
is at least one. -/
theorem confined_windowScript : windowScript.Confined ValueWindow.Sound := by
  refine (confined_fieldScript (by decide) (by decide)).bind fun leading _ => ?_
  refine (confined_fieldScript (by decide) (by decide)).bind fun length _ => ?_
  simp only
  split
  case isTrue wide => exact ⟨leading, length + 1, rfl, wide⟩
  case isFalse narrow =>
      show leading + (64 - (leading + (length + 1))) < 64
      omega

theorem confined_differenceScript {window : ValueWindow} (sound : window.Sound) :
    (differenceScript window).Confined fun result => result.2.Sound := by
  have cut : ∀ used : ValueWindow, used.Sound →
      (Script.window used (fieldScript used.width) >>= fun meaningful =>
        pure (UInt64.ofNat (meaningful <<< used.trailing), used)).Confined
          fun result => result.2.Sound := by
    intro used soundUsed
    obtain ⟨some_bits, one_word⟩ := soundUsed.width_bounds
    have named : (Script.window used (fieldScript used.width)).Confined Free :=
      ⟨soundUsed, confined_fieldScript some_bits one_word⟩
    exact named.bind fun _ _ => soundUsed
  refine confined_bitScript.bind fun differs _ => ?_
  split
  · exact sound
  refine confined_bitScript.bind fun isNew _ => ?_
  split
  · exact confined_windowScript.bind cut
  · exact cut window sound

theorem confined_nextScript {link : Link} (sound : link.window.Sound) :
    (nextScript link).Confined fun result => result.2.window.Sound :=
  confined_deltaChangeScript.bind fun _ _ =>
    (confined_differenceScript sound).bind fun _ soundBehind => soundBehind

theorem confined_script {decoder : BlockDecoder} (sound : decoder.link.window.Sound) :
    decoder.script.Confined fun result => result.2.window.Sound := by
  unfold script
  split
  · exact confined_firstScript.bind fun point _ => Link.sound_ofFirst point
  · exact confined_nextScript sound

/-! ## Decoders -/

/-- What the next call does to the bits. -/
def accesses (decoder : BlockDecoder) : List Access :=
  if decoder.failed || decoder.count ≤ decoder.decoded then [] else
    decoder.script.accesses decoder.reader

/-- The decoder stands at its place in the data, behind a sound window. -/
structure Confined (data : Bytes) (decoder : BlockDecoder) : Prop where
  stands : decoder.reader.StandsIn data
  sound : decoder.link.window.Sound
  decoded_le : decoder.decoded ≤ decoder.count

theorem confined_ofBlock (block : Block) : Confined block.data (.ofBlock block) where
  stands := BitReader.standsIn_ofBytes block.data
  sound := by
    show 0 + 0 < 64
    decide
  decoded_le := Nat.zero_le _

variable {data : Bytes} {decoder : BlockDecoder}

theorem Confined.accesses_within (confined : decoder.Confined data) :
    ∀ access ∈ decoder.accesses, access.Within data := by
  unfold accesses
  split
  · simp
  · exact ((confined_script confined.sound).run confined.stands).1

/-- A call yields nothing and changes nothing if a call has failed or all points are read.
Otherwise it reads one point or fails. -/
theorem Confined.call_cases (confined : decoder.Confined data) :
    ((decoder.failed = true ∨ decoder.remaining = 0) ∧ decoder.call = (none, decoder))
      ∨ decoder.failed = false ∧
        ((∃ point next, decoder.call = (some (.ok point), next) ∧ next.Confined data
            ∧ next.failed = false ∧ next.remaining + 1 = decoder.remaining)
          ∨ ∃ cause, decoder.call
              = (some (.error (.malformed cause)), { decoder with failed := true })
            ∧ (cause = .truncatedBlock ∨ TooWide cause) ∧ 0 < decoder.remaining) := by
  have bounded := confined.decoded_le
  by_cases spent : decoder.failed = true ∨ decoder.count ≤ decoder.decoded
  · refine Or.inl ⟨spent.imp_right fun all => ?_, ?_⟩
    · unfold remaining
      omega
    · rw [call, step, if_pos (by simpa using spent)]
  obtain ⟨fine, more⟩ := not_or.mp spent
  have some_left := Nat.lt_of_not_le more
  refine Or.inr ⟨Bool.eq_false_iff.mpr fine, ?_⟩
  rcases ((confined_script confined.sound).run confined.stands).2 with
    ⟨⟨point, link⟩, reader, read, sound, stands⟩ | ⟨cause, failed, known⟩
  · rw [run_script] at read
    refine Or.inl ⟨point,
      { decoder with reader := reader, decoded := decoder.decoded + 1, link := link },
      ?_, ⟨stands, sound, some_left⟩, Bool.eq_false_iff.mpr fine, ?_⟩
    · rw [call, step, if_neg (by simpa using spent), read]
    · unfold remaining
      simp only
      omega
  · rw [run_script] at failed
    refine Or.inr ⟨cause, ?_, known, Nat.sub_pos_of_lt some_left⟩
    rw [call, step, if_neg (by simpa using spent), failed]

theorem Confined.fail (confined : decoder.Confined data) :
    ({ decoder with failed := true } : BlockDecoder).Confined data :=
  ⟨confined.stands, confined.sound, confined.decoded_le⟩

/-- A decoder stays confined, whatever its calls yield. -/
theorem Confined.after_calls (confined : decoder.Confined data) (number : Nat) :
    (leftAfter call decoder number).Confined data := by
  induction number generalizing decoder with
  | zero => exact confined
  | succ number ih =>
      rw [leftAfter]
      rcases confined.call_cases with ⟨_, called⟩ | ⟨_, ⟨point, next, called, onward, _⟩
        | ⟨cause, called, _⟩⟩
      · rw [called]
        exact ih confined
      · rw [called]
        exact ih onward
      · rw [called]
        exact ih confined.fail

/-- A decoder yields as many points as it is to read, or else fewer and then one failure. -/
theorem Confined.yields (confined : decoder.Confined data) (fine : decoder.failed = false) :
    ∃ (points : List Point) (ending : List (Except Failure Point)),
      Yields call decoder (points.map .ok ++ ending)
      ∧ (ending = [] ∧ points.length = decoder.remaining
        ∨ ∃ cause, ending = [.error (.malformed cause)]
          ∧ (cause = .truncatedBlock ∨ TooWide cause) ∧ points.length < decoder.remaining)
      ∧ ∀ number, (leftAfter call decoder number).remaining
          + (points.take number).length = decoder.remaining := by
  generalize count : decoder.remaining = left_to_read
  induction left_to_read generalizing decoder with
  | zero =>
      rcases confined.call_cases with ⟨_, called⟩ | ⟨_, ⟨point, next, _, _, _, later⟩
        | ⟨_, _, _, some_left⟩⟩
      · refine ⟨[], [], yields_nil called, Or.inl ⟨rfl, rfl⟩, fun number => ?_⟩
        rw [leftAfter_of_spent called, count]
        simp
      · omega
      · omega
  | succ left_to_read ih =>
      rcases confined.call_cases with ⟨spent, _⟩ | ⟨_, ⟨point, next, called, onward, fineNext, later⟩
        | ⟨cause, called, known, some_left⟩⟩
      · rcases spent with failed | none_left
        · rw [fine] at failed
          cases failed
        · omega
      · obtain ⟨points, ending, yields, ends, left⟩ := ih onward fineNext (by omega)
        refine ⟨point :: points, ending, Yields.cons called yields, ?_, ?_⟩
        · rcases ends with ⟨none_wrong, all⟩ | ⟨cause, wrong, known, fewer⟩
          · exact Or.inl ⟨none_wrong, by simp [all]⟩
          · exact Or.inr ⟨cause, wrong, known, by simpa using fewer⟩
        · intro number
          cases number with
          | zero => simpa [leftAfter] using count
          | succ number =>
              have later_left := left number
              rw [leftAfter, called, List.take_succ_cons, List.length_cons]
              simp only
              omega
      · have spent : ({ decoder with failed := true } : BlockDecoder).call = (none, _) :=
          call_of_failed rfl
        refine ⟨[], [.error (.malformed cause)], Yields.cons called (yields_nil spent),
          Or.inr ⟨cause, rfl, known, Nat.succ_pos _⟩, fun number => ?_⟩
        cases number with
        | zero => simpa [leftAfter] using count
        | succ number =>
            rw [leftAfter, called, leftAfter_of_spent spent]
            simpa [remaining] using count

/-- **Any bytes are decoded within bounds.**  A block that holds any bytes and says that it holds
any number of points is read as that many points; or as fewer, and then it is reported once that the
bits end within a point or that a window would be too wide.  After that nothing is yielded, however
often it is called.  At any moment what remains is the count without the points yielded so far, and
whatever the next call does to the bits, whether it yields a point or fails: each field it takes is
of 1 to 64 bits, lies within the data and has the bits that are there, none is refused but for want
of bits, and no window leaves out more than 63 zeros. -/
theorem decodes_any_bytes (block : Block) :
    ∃ (points : List Point) (ending : List (Except Failure Point)),
      Yields call (.ofBlock block) (points.map .ok ++ ending)
      ∧ (ending = [] ∧ points.length = block.count
        ∨ ∃ cause, ending = [.error (.malformed cause)]
          ∧ (cause = .truncatedBlock ∨ TooWide cause) ∧ points.length < block.count)
      ∧ ∀ number,
        let decoder := leftAfter call (.ofBlock block) number
        decoder.remaining + (points.take number).length = block.count
          ∧ ∀ access ∈ decoder.accesses, access.Within block.data := by
  have confined := confined_ofBlock block
  obtain ⟨points, ending, yields, ends, left⟩ := confined.yields rfl
  exact ⟨points, ending, yields, ends,
    fun number => ⟨left number, (confined.after_calls number).accesses_within⟩⟩

/-- Behind a first point the bits describe a window of 64 bits with 31 zeros in front of them. -/
theorem decodes_any_bytes_of_wide :
    let block : Block := ⟨List.replicate 16 0 ++ [0x7f, 0xff], 3, 0, 0⟩
    let decoder := leftAfter call (.ofBlock block) 1
    decoder.call.1 = some (.error (.malformed (.valueWindow 31 64)))
      ∧ .field 131 5 31 ∈ decoder.accesses ∧ (Access.field 131 5 31).Within block.data := by
  intro block decoder
  have asked : Access.field 131 5 31 ∈ decoder.accesses := by decide +kernel
  obtain ⟨_, _, _, _, within⟩ := decodes_any_bytes block
  exact ⟨by decide +kernel, asked, (within 1).2 _ asked⟩

end BlockDecoder

end TimeSeries
