import TimeSeries.Proofs.Cursor.Corruption

/-!
# Streams that are lost to a failure

A filtering layer moves the cursor below on before it uses an entry.  If that fails, the layer gives
up: the entry in hand is lost, the layer has no top, and whoever reads on as long as there is one
never comes to the entries behind.  So of all strips only the first counts, and of this not the last
entry unless it is the only strip (`Course.spared`).

What the layer presents of entries is told by the entries in turn and the windows so far
(`Filtered.outputs`).  Over stored entries with a corrupt one among those that are visited, a scan
presents the beginning of what it would present without it, and what is due for the rest is missing.

Main statement: `Filtered.filtered_past_corrupt`.
-/

set_option autoImplicit false

namespace TimeSeries

open Cursor (readings course)

namespace Course

/-- The entries up to the first failure, without the one behind which it is met. -/
def spared : List (List Entry) → List Entry
  | [] => []
  | [strip] => strip
  | strip :: _ :: _ => strip.dropLast

/-- The last entry in front of a failure and all entries behind it. -/
def forsaken : List (List Entry) → List Entry
  | [] => []
  | [_] => []
  | strip :: next :: behind => strip.getLast?.toList ++ (next :: behind).flatten

theorem spared_append_forsaken (strips : List (List Entry)) :
    spared strips ++ forsaken strips = strips.flatten := by
  match strips with
  | [] => rfl
  | [strip] => simp [spared, forsaken]
  | strip :: next :: behind =>
      rw [spared, forsaken, ← List.append_assoc, List.flatten_cons]
      congr 1
      rcases List.eq_nil_or_concat strip with rfl | ⟨front, last, rfl⟩
      · rfl
      · simp

/-- Nothing is forsaken exactly if there is no failure or there are no entries. -/
theorem forsaken_eq_nil_iff (strips : List (List Entry)) :
    forsaken strips = [] ↔ (∃ strip, strips = [strip]) ∨ strips.flatten = [] := by
  match strips with
  | [] => simp [forsaken]
  | [strip] => simp [forsaken]
  | strip :: next :: behind =>
      rcases List.eq_nil_or_concat strip with rfl | ⟨front, last, rfl⟩ <;> simp [forsaken]

/-- The entries that are read with nothing failing in moving on are those that are spared. -/
theorem spared_strips (met : List (Entry × Option Failure)) :
    spared (strips met) = (met.takeWhile fun reading => reading.2.isNone).map Prod.fst := by
  induction met with
  | nil => rfl
  | cons reading rest ih =>
      obtain ⟨strip, behind, split⟩ := exists_strips rest
      obtain ⟨entry, failure⟩ := reading
      cases failure with
      | some cause =>
          rw [strips, split, List.takeWhile_cons_of_neg (by simp)]
          rfl
      | none =>
          rw [List.takeWhile_cons_of_pos (by rfl), List.map_cons, ← ih, strips, split,
            List.modifyHead_cons]
          cases behind with
          | nil => rfl
          | cons next behind =>
              have some_entries : strip ≠ [] := by
                rintro rfl
                cases (eq_nil_of_strips split).2
              rw [spared, spared, List.dropLast_cons_of_ne_nil some_entries]

/-- Strips with nothing in them matter only in front of all entries. -/
theorem spared_tidy {strips : List (List Entry)}
    (sought : ¬ ∃ strip behind, strips = [] :: strip :: behind) :
    spared (tidy strips) = spared strips := by
  match strips with
  | [] => rfl
  | [[]] => rfl
  | [] :: next :: behind => exact absurd ⟨next, behind, rfl⟩ sought
  | [entry :: strip] => rfl
  | (entry :: strip) :: next :: behind =>
      rw [tidy_cons_cons]
      obtain ⟨other, others, split⟩ :=
        List.exists_cons_of_ne_nil (tidy_ne_nil (List.cons_ne_nil next behind))
      rw [split, spared, spared]

end Course

/-! ## The layer -/

namespace Filtered

variable (filter : MovingFilter) (warmUp : WarmUp) (scope : Scope)

/-- What becomes of the windows and what is due when an entry is taken; nothing, if it cannot be. -/
def taking (windows : SortedMap (List String) (List Point)) (entry : Entry) :
    SortedMap (List String) (List Point) × Option Entry :=
  match take ⟨(), filter, warmUp, scope, windows, none⟩ entry with
  | .ok taken => taken
  | .error _ => (windows, none)

/-- What the layer presents of entries in turn. -/
def outputs (windows : SortedMap (List String) (List Point)) : List Entry → List Entry
  | [] => []
  | entry :: rest =>
      (taking filter warmUp scope windows entry).2.toList
        ++ outputs (taking filter warmUp scope windows entry).1 rest

/-- The windows behind some entries. -/
def windowsAfter (windows : SortedMap (List String) (List Point)) (entries : List Entry) :
    SortedMap (List String) (List Point) :=
  entries.foldl (fun windows entry => (taking filter warmUp scope windows entry).1) windows

theorem outputs_append (windows : SortedMap (List String) (List Point)) (first second : List Entry) :
    outputs filter warmUp scope windows (first ++ second)
      = outputs filter warmUp scope windows first
        ++ outputs filter warmUp scope (windowsAfter filter warmUp scope windows first) second := by
  induction first generalizing windows with
  | nil => rfl
  | cons entry first ih => rw [List.cons_append, outputs, ih, outputs, List.append_assoc]; rfl

/-- With early values, something is due for each plain entry. -/
theorem outputs_eq_nil_iff_of_early {windows : SortedMap (List String) (List Point)}
    {entries : List Entry} (plain : ∀ entry ∈ entries, entry.Plain) :
    outputs filter .early scope windows entries = [] ↔ entries = [] := by
  cases entries with
  | nil => exact iff_of_true rfl rfl
  | cons entry rest =>
      refine iff_of_false (fun nothing => ?_) (List.cons_ne_nil entry rest)
      obtain ⟨name, points, _, _, taken⟩ := take_of_plain
        ⟨(), filter, .early, scope, windows, none⟩ (plain entry List.mem_cons_self)
      rw [outputs, taking, taken] at nothing
      simp [MovingFilter.due?] at nothing

variable {σ : Type} [Cursor σ]

/-- Reading on past failures presents what comes of the entries that are spared. -/
theorem entries_fill {met : List (Entry × Option Failure)} {cursor : Filtered σ}
    (read : readings cursor.below = met) (failure : Option Failure) :
    (course (fill cursor failure)).entries
      = outputs cursor.filter cursor.warmUp cursor.scope cursor.windows
        ((met.takeWhile fun reading => reading.2.isNone).map Prod.fst) := by
  have gone : ∀ {cursor : Filtered σ} (_ : cursor.top = none) failure,
      (course (cursor, failure)).entries = [] := fun nothing _ =>
    congrArg (List.map Prod.fst) (Cursor.readings_of_finished nothing)
  induction met generalizing cursor failure with
  | nil =>
      rw [fill_of_finished (Cursor.top_of_readings_nil read)]
      exact gone rfl failure
  | cons reading rest ih =>
      obtain ⟨entry, failed⟩ := reading
      obtain ⟨here, later, moved, onward⟩ := Cursor.exists_next_of_readings read
      cases failed with
      | some cause =>
          rw [fill_of_failing here moved, List.takeWhile_cons_of_neg (by simp)]
          exact gone rfl _
      | none =>
          rw [fill_of_entry here moved, List.takeWhile_cons_of_pos (by rfl), List.map_cons, outputs,
            taking, show take ⟨(), cursor.filter, cursor.warmUp, cursor.scope, cursor.windows, none⟩
              entry = cursor.take entry from rfl]
          match taken : cursor.take entry with
          | .error cause => exact @ih { cursor with below := later } onward _
          | .ok (windows, none) =>
              exact @ih { cursor with below := later, windows := windows } onward _
          | .ok (windows, some output) =>
              rw [Cursor.course_of_top rfl]
              exact congrArg (output :: ·) (@ih { cursor with
                below := later, windows := windows, top := some output } onward none)

/-- What a scan presents, told by what is met below: nothing if the seek fails there. -/
theorem scan_above (range : KeyRange) (below : σ) :
    Cursor.scan range (above filter warmUp scope below)
      = if (course (Cursor.seek range below)).failure = none then
          outputs filter warmUp scope .empty
            (Course.spared (Course.strips (course (Cursor.seek range below)).readings))
        else [] := by
  show (course (Filtered.seek range (above filter warmUp scope below))).entries = _
  rw [Course.spared_strips]
  unfold Filtered.seek
  rw [show Cursor.seek range (above filter warmUp scope below).below = Cursor.seek range below from rfl]
  obtain ⟨sought, failure⟩ := Cursor.seek range below
  cases failure with
  | none => exact (entries_fill rfl none).trans (if_pos rfl).symm
  | some cause =>
      refine Eq.trans ?_ (if_neg (Option.some_ne_none cause)).symm
      exact congrArg (List.map Prod.fst) (@Cursor.readings_of_finished _ _
        (Filtered.mk sought filter warmUp scope .empty none) rfl)

/-! ## Over stored entries -/

/-- Over stored entries a scan presents what comes of the points that are spared. -/
theorem scan_of_sound {entries : List Entry}
    (sound : ∀ entry ∈ entries, entry.isCorrupt = true ∨ entry.Valid) (range : KeyRange) :
    Cursor.scan range (above filter warmUp scope (Expanded.above (SortedEntries.ofList entries)))
      = outputs filter warmUp scope .empty
        (Course.spared (Expanded.strips range (Expanded.visited range entries))) := by
  obtain ⟨strips, fine⟩ := Expanded.course_strips sound range
  rw [scan_above, strips]
  by_cases failing : ∃ strip behind,
      Expanded.strips range (Expanded.visited range entries) = [] :: strip :: behind
  · rw [if_neg (mt fine.mp (not_not.mpr failing))]
    obtain ⟨strip, behind, split⟩ := failing
    rw [split]
    rfl
  · rw [if_pos (fine.mpr failing), Course.spared_tidy failing]

/-- **A filtered scan past corrupt entries.**  Of the readable points, the scan spares those in front
of the first corrupt entry except the last of these, and presents what is due for them.  What would
be due for the others is missing from the end of what it would present without the corrupt entries.
So it presents the same if it visits no corrupt entry or there are no points, and with early values
only then. -/
theorem filtered_past_corrupt {entries : List Entry}
    (sound : ∀ entry ∈ entries, entry.isCorrupt = true ∨ entry.Valid) (range : KeyRange) :
    let scanner (entries : List Entry) :=
      above filter warmUp scope (Expanded.above (SortedEntries.ofList entries))
    let damaged := Cursor.scan range (scanner entries)
    let mended := Cursor.scan range (scanner (entries.filter fun entry => !entry.isCorrupt))
    let strips := Expanded.strips range (Expanded.visited range entries)
    damaged = outputs filter warmUp scope .empty (Course.spared strips)
      ∧ mended = outputs filter warmUp scope .empty strips.flatten
      ∧ mended = damaged ++ outputs filter warmUp scope
        (windowsAfter filter warmUp scope .empty (Course.spared strips)) (Course.forsaken strips)
      ∧ ((∀ entry ∈ Expanded.visited range entries, entry.isCorrupt = false)
          ∨ strips.flatten = [] → damaged = mended)
      ∧ (warmUp = .early → damaged = mended →
        (∀ entry ∈ Expanded.visited range entries, entry.isCorrupt = false)
          ∨ strips.flatten = []) := by
  intro scanner damaged mended strips
  have damagedScan : damaged = outputs filter warmUp scope .empty (Course.spared strips) :=
    scan_of_sound filter warmUp scope sound range
  have mendedScan : mended = outputs filter warmUp scope .empty strips.flatten := by
    refine (scan_of_sound filter warmUp scope (fun entry member =>
      sound entry (List.mem_filter.mp member).1) range).trans ?_
    rw [Expanded.strips_mended]
    rfl
  have parts : mended = damaged ++ outputs filter warmUp scope
      (windowsAfter filter warmUp scope .empty (Course.spared strips)) (Course.forsaken strips) := by
    rw [mendedScan, damagedScan, ← outputs_append, Course.spared_append_forsaken]
  rw [← Expanded.strips_eq_singleton_iff range, ← Course.forsaken_eq_nil_iff strips]
  refine ⟨damagedScan, mendedScan, parts, fun nothing => ?_, fun early same => ?_⟩
  · rw [parts, nothing, outputs, List.append_nil]
  · subst early
    have plain : ∀ entry ∈ strips.flatten, entry.Plain := fun entry member =>
      Expanded.plain_of_mem_strips sound member
    rw [← Course.spared_append_forsaken strips] at plain
    exact (outputs_eq_nil_iff_of_early filter scope fun entry member =>
      plain entry (List.mem_append_right _ member)).mp
        (List.append_right_eq_self.mp (parts.symm.trans same.symm))

/-- With a corrupt entry behind its first point, nothing of a series is presented. -/
theorem filtered_past_corrupt_of_first :
    let strand : Strand := ⟨"m", "h=a", "", ""⟩
    let entries : List Entry := [strand.entryAt ⟨1, ⟨1⟩⟩, ⟨strand.key 2, List.replicate 20 0⟩,
      strand.entryAt ⟨3, ⟨2⟩⟩, strand.entryAt ⟨4, ⟨4⟩⟩]
    let scanner (entries : List Entry) := above (.weighted [⟨1⟩]) .early .series
      (Expanded.above (SortedEntries.ofList entries))
    (∀ entry ∈ entries, entry.isCorrupt = true ∨ entry.Valid)
      ∧ Cursor.scan .all (scanner entries) = []
      ∧ Cursor.scan .all (scanner (entries.filter fun entry => !entry.isCorrupt)) ≠ [] := by
  intro strand entries scanner
  have sound : ∀ entry ∈ entries, entry.isCorrupt = true ∨ entry.Valid := by
    have valid := strand.valid_entryAt
    simp only [entries, List.forall_mem_cons]
    exact ⟨Or.inr (valid _), Or.inl (by decide +kernel), Or.inr (valid _), Or.inr (valid _), by simp⟩
  obtain ⟨damaged, _, _, _, exactly⟩ :=
    filtered_past_corrupt (.weighted [⟨1⟩]) .early .series sound .all
  have strips : Expanded.strips .all (Expanded.visited .all entries) = [[strand.entryAt ⟨1, ⟨1⟩⟩],
      [strand.entryAt ⟨3, ⟨2⟩⟩, strand.entryAt ⟨4, ⟨4⟩⟩]] := by
    rw [Expanded.visited, SortedEntries.entries_ofList (by decide +kernel)]
    decide +kernel
  rw [strips] at damaged
  refine ⟨sound, damaged, fun nothing => ?_⟩
  rcases exactly rfl (Eq.trans damaged nothing.symm) with unharmed | empty
  · obtain ⟨strip, alone⟩ := (Expanded.strips_eq_singleton_iff .all _).mpr unharmed
    rw [strips] at alone
    cases alone
  · rw [strips] at empty
    cases empty

end Filtered

end TimeSeries
