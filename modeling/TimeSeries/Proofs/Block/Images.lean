import Mathlib.Algebra.Group.Nat.Defs
import TimeSeries.Block.Image

/-!
# What is an image of a block

An image is a body with its checksum behind it (`Block.checked`).  A body begins with five parts: the
count, the two ends and the length of the data, eight bytes each, and then as many bytes as the
length says.  More bytes may follow up to the checksum; they belong to no block, but the checksum is
that of the whole body.

`Block.DepictedBy` says when bytes are such an image.  It speaks only of digits in base 256, of the
checksum and of how byte strings are joined, so it can be held against what is read.

Main statement: `Block.image_format` says that the images of blocks, and they alone, are read, and
that every other byte string is malformed.
-/

set_option autoImplicit false

namespace TimeSeries

/-! ## Numbers, the low digits first -/

namespace Bytes

theorem toNatLE_ofNatLE (width number : Nat) :
    toNatLE (ofNatLE width number) = number % 256 ^ width := by
  rw [toNatLE, ofNatLE, List.reverse_reverse, toNatBE_ofNatBE]

theorem ofNatLE_toNatLE (bytes : Bytes) : ofNatLE bytes.length (toNatLE bytes) = bytes := by
  have digits := ofNatBE_toNatBE bytes.reverse
  rw [List.length_reverse] at digits
  rw [ofNatLE, toNatLE, digits, List.reverse_reverse]

theorem toNatLE_lt (bytes : Bytes) : toNatLE bytes < 256 ^ bytes.length := by
  have below := toNatBE_lt bytes.reverse
  rwa [List.length_reverse] at below

/-- A number that fits is written as a word is. -/
theorem ofWordLE_ofNat {number : Nat} (fits : number < 2 ^ 64) :
    ofWordLE (UInt64.ofNat number) = ofNatLE 8 number := by
  rw [ofWordLE, UInt64.toNat_ofNat_of_lt' fits]

/-- A word is taken off bytes that begin with it, and off no others. -/
theorem takeWordLE?_eq_some_iff {bytes rest : Bytes} {word : UInt64} :
    takeWordLE? bytes = some (word, rest) ↔ bytes = ofWordLE word ++ rest := by
  constructor
  · intro taken
    rw [takeWordLE?] at taken
    split at taken
    case isTrue eight =>
        cases taken
        have length : (bytes.take 8).length = 8 := List.length_take_of_le eight
        have fits : toNatLE (bytes.take 8) < 2 ^ 64 := by
          have below := toNatLE_lt (bytes.take 8)
          rwa [length] at below
        have digits := ofNatLE_toNatLE (bytes.take 8)
        rw [length] at digits
        rw [ofWordLE_ofNat fits, digits, List.take_append_drop]
    case isFalse => cases taken
  · rintro rfl
    exact takeWordLE?_ofWordLE_append word rest

/-- What goes on with a word from the front of bytes that begin with one. -/
theorem takeWordLE?_bind {α : Type} (word : UInt64) (rest : Bytes)
    (onward : UInt64 × Bytes → Option α) :
    (takeWordLE? (ofWordLE word ++ rest) >>= onward) = onward (word, rest) := by
  rw [takeWordLE?_ofWordLE_append]
  rfl

end Bytes

namespace Block

/-! ## Bodies -/

/-- The body of a block, with bytes behind it that belong to no block. -/
def bodyWith (block : Block) (further : Bytes) : Bytes :=
  Bytes.ofNatLE 8 block.count ++ Bytes.ofWordLE block.first.toUInt64
    ++ Bytes.ofWordLE block.last.toUInt64 ++ Bytes.ofNatLE 8 block.data.length
    ++ block.data ++ further

/-- The count and the length of the data fit in eight bytes, as those of bytes in memory do. -/
structure Fits (block : Block) : Prop where
  count : block.count < 2 ^ 64
  length : block.data.length < 2 ^ 64

theorem body_eq (block : Block) : block.body = block.bodyWith [] :=
  (List.append_nil _).symm

/-- The block at the front of its own body is that block, whatever follows. -/
theorem Fits.ofBody? {block : Block} (fits : block.Fits) (further : Bytes) :
    ofBody? (block.bodyWith further) = some block := by
  have count := UInt64.toNat_ofNat_of_lt' fits.count
  have length := UInt64.toNat_ofNat_of_lt' fits.length
  rw [bodyWith, ← Bytes.ofWordLE_ofNat fits.count, ← Bytes.ofWordLE_ofNat fits.length]
  simp only [List.append_assoc]
  rw [Block.ofBody?]
  iterate 4
    rw [Bytes.takeWordLE?_bind]
    dsimp only
  rw [count, length, List.length_append, if_pos (Nat.le_add_right _ _), List.take_left,
    Int64.toInt64_toUInt64, Int64.toInt64_toUInt64]
  rfl

/-- Bytes with a block at their front are a body of that block. -/
theorem of_ofBody? {bytes : Bytes} {block : Block} (read : ofBody? bytes = some block) :
    block.Fits ∧ ∃ further, bytes = block.bodyWith further := by
  obtain ⟨⟨count, rest⟩, countTaken, read⟩ := Option.bind_eq_some_iff.mp read
  obtain ⟨⟨first, rest'⟩, firstTaken, read⟩ := Option.bind_eq_some_iff.mp read
  obtain ⟨⟨last, rest''⟩, lastTaken, read⟩ := Option.bind_eq_some_iff.mp read
  obtain ⟨⟨length, data⟩, lengthTaken, read⟩ := Option.bind_eq_some_iff.mp read
  simp only at read
  split at read
  case isTrue enough =>
      cases read
      have whole : (data.take length.toNat).length = length.toNat :=
        List.length_take_of_le enough
      refine ⟨⟨count.toNat_lt, ?_⟩, data.drop length.toNat, ?_⟩
      · rw [whole]
        exact length.toNat_lt
      rw [Bytes.takeWordLE?_eq_some_iff] at countTaken firstTaken lastTaken lengthTaken
      subst lengthTaken lastTaken firstTaken countTaken
      simp only [bodyWith, whole, ← Bytes.ofWordLE_ofNat (UInt64.toNat_lt _),
        UInt64.ofNat_toNat, UInt64.toUInt64_toInt64, List.append_assoc,
        List.take_append_drop]
  case isFalse => cases read

/-! ## Images -/

/-- A body with its checksum behind it. -/
def checked (body : Bytes) : Bytes := body ++ Bytes.ofNatLE 4 (Checksum.ofBytes body).toNat

/-- The word of the last four bytes. -/
def trailer (image : Bytes) : UInt32 :=
  UInt32.ofNat (Bytes.toNatLE (image.drop (image.length - 4)))

theorem toImage_eq (block : Block) : block.toImage = checked (block.bodyWith []) := by
  rw [← body_eq]
  rfl

theorem length_checked (body : Bytes) : (checked body).length = body.length + 4 := by
  rw [checked, List.length_append, Bytes.length_ofNatLE]

theorem take_checked (body : Bytes) :
    (checked body).take ((checked body).length - 4) = body := by
  rw [length_checked, Nat.add_sub_cancel, checked, List.take_left]

theorem trailer_checked (body : Bytes) : trailer (checked body) = Checksum.ofBytes body := by
  have fits : (Checksum.ofBytes body).toNat < 256 ^ 4 := (Checksum.ofBytes body).toNat_lt
  rw [trailer, length_checked, Nat.add_sub_cancel, checked, List.drop_left,
    Bytes.toNatLE_ofNatLE, Nat.mod_eq_of_lt fits, UInt32.ofNat_toNat]

/-- Bytes that end in the checksum of what is in front of it are a body with its checksum. -/
theorem checked_take {image : Bytes} (long : 4 ≤ image.length)
    (agrees : trailer image = Checksum.ofBytes (image.take (image.length - 4))) :
    checked (image.take (image.length - 4)) = image := by
  have four : (image.drop (image.length - 4)).length = 4 := by
    rw [List.length_drop]
    omega
  have fits : Bytes.toNatLE (image.drop (image.length - 4)) < 2 ^ 32 := by
    have below := Bytes.toNatLE_lt (image.drop (image.length - 4))
    rwa [four] at below
  have digits := Bytes.ofNatLE_toNatLE (image.drop (image.length - 4))
  rw [four] at digits
  rw [checked, ← agrees, trailer, UInt32.toNat_ofNat_of_lt' fits, digits, List.take_append_drop]

/-- What is read of an image: bytes that are too short, and bytes with another checksum than the one
they end in, are refused, and of all others the body decides. -/
theorem ofImage_eq (image : Bytes) :
    ofImage image =
      if image.length < 4 then .error (.malformed .imageTooShort)
      else if trailer image = Checksum.ofBytes (image.take (image.length - 4)) then
        match ofBody? (image.take (image.length - 4)) with
        | some block => .ok block
        | none => .error (.malformed .blockImage)
      else .error (.malformed (.checksumMismatch (trailer image)
        (Checksum.ofBytes (image.take (image.length - 4))))) := by
  unfold ofImage trailer
  split
  case isTrue => rfl
  case isFalse =>
      by_cases agrees : UInt32.ofNat (Bytes.toNatLE (image.drop (image.length - 4)))
          = Checksum.ofBytes (image.take (image.length - 4))
      · exact (if_neg (not_not_intro agrees)).trans (if_pos agrees).symm
      · exact (if_pos agrees).trans (if_neg agrees).symm

/-- The bytes are the image of the block: its count, its first and its last timestamp and the length
of its data, eight bytes each, then the data and any further bytes, and at the end the checksum of
all that. -/
def DepictedBy (block : Block) (image : Bytes) : Prop :=
  block.Fits ∧ ∃ further, image = checked (block.bodyWith further)

theorem ofImage_eq_ok_iff {image : Bytes} {block : Block} :
    ofImage image = .ok block ↔ block.DepictedBy image := by
  constructor
  · intro read
    rw [ofImage_eq] at read
    split at read
    case isTrue => cases read
    case isFalse long =>
    split at read
    case isFalse => cases read
    case isTrue agrees =>
    split at read
    case h_2 => cases read
    case h_1 found =>
      cases read
      obtain ⟨fits, further, body⟩ := of_ofBody? found
      refine ⟨fits, further, ?_⟩
      rw [← body, checked_take (Nat.le_of_not_lt long) agrees]
  · rintro ⟨fits, further, rfl⟩
    have long : ¬ (checked (block.bodyWith further)).length < 4 := by
      rw [length_checked]
      omega
    rw [ofImage_eq, if_neg long, take_checked, trailer_checked, if_pos rfl, fits.ofBody?]

/-- Bytes that are no image of a block are malformed. -/
theorem exists_cause_of_ofImage {image : Bytes} (none_read : ∀ block, ofImage image ≠ .ok block) :
    ∃ cause, ofImage image = .error (.malformed cause) := by
  revert none_read
  rw [ofImage_eq]
  split
  · exact fun _ => ⟨_, rfl⟩
  split
  · split
    · exact fun none_read => absurd rfl (none_read _)
    · exact fun _ => ⟨_, rfl⟩
  · exact fun _ => ⟨_, rfl⟩

/-- **The format of images.**  A block whose count and length fit in eight bytes is read back from
its image.  Whatever bytes are given, what is read is the block whose image they are, and bytes that
are the image of no block are malformed. -/
theorem image_format :
    (∀ block : Block, block.Fits → ofImage block.toImage = .ok block)
      ∧ ∀ image : Bytes,
        (∀ block, ofImage image = .ok block ↔ block.DepictedBy image)
          ∧ ((∀ block : Block, ¬ block.DepictedBy image) →
            ∃ cause, ofImage image = .error (.malformed cause)) := by
  refine ⟨fun block fits => ?_,
    fun image => ⟨fun block => ofImage_eq_ok_iff, fun none_depicted => ?_⟩⟩
  · exact ofImage_eq_ok_iff.mpr ⟨fits, [], toImage_eq block⟩
  · exact exists_cause_of_ofImage fun block => mt ofImage_eq_ok_iff.mp (none_depicted block)

/-- A block of two points from before the epoch, and two bytes that are no image. -/
theorem image_format_of_two :
    let block : Block := ⟨[0xab, 0xcd, 0xef], 2, -1000, 5⟩
    let stub : Bytes := [1, 2]
    block.Fits ∧ (∀ block : Block, ¬ block.DepictedBy stub)
      ∧ ofImage block.toImage = .ok block
      ∧ ∃ cause, ofImage stub = .error (.malformed cause) := by
  intro block stub
  have fits : block.Fits := ⟨by decide, by decide⟩
  have none_depicted : ∀ block : Block, ¬ block.DepictedBy stub := by
    rintro block ⟨_, further, image⟩
    have lengths := congrArg List.length image
    rw [length_checked] at lengths
    have short : stub.length = 2 := rfl
    omega
  exact ⟨fits, none_depicted, image_format.1 block fits, (image_format.2 stub).2 none_depicted⟩

end Block

end TimeSeries
