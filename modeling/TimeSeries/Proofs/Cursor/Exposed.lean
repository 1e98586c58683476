import TimeSeries.Proofs.Cursor.Calls
import TimeSeries.Proofs.Cursor.Expansion
import TimeSeries.Proofs.Entries.Runs

/-!
# What is exposed in passing over expired entries

After each move the layer of retained entries passes over expired ones.  A failure ends that: the
layer then stands on whatever comes next, expired or not.  So an expired entry is exposed exactly if
passing over entries stumbles in front of it, that is if moving on from another expired entry failed
(`Retained.Stumbles`).  The next move passes over entries again.

Over stored entries, packed runs that cannot be read among them, nothing that is retained is lost or
exposed twice.  The layer exposes just what is retained if no failure is met between two expired
entries that follow each other, and otherwise expired entries besides.

Main statement: `Retained.exposes`.
-/

set_option autoImplicit false

namespace TimeSeries

/-! ## What can be read of an entry -/

/-- What can be read of an entry: its single value, or an entry for each point of its packed run up to
the first that is out of order.  Nothing can be read of a run of another length than that of some
points, or of points in a row that names no metric. -/
def Entry.readout (entry : Entry) : List (Except Failure Entry) :=
  if isPacked entry.value then
    if entry.value.length % 16 = 0 then
      match entry.key.metric with
      | .ok metric => (inOrder none (pointsIn entry.value)).map fun found => found.map fun point =>
          ⟨{ entry.key with row := Row.ofPoint metric point.timestamp, timestamp := point.timestamp },
            point.value.toBytes⟩
      | .error failure => if pointsIn entry.value = [] then [] else [.error failure]
    else
      [.error (.malformed (.packedLength entry.value.length))]
  else
    [.ok entry]

namespace OpenRun

/-- Over the range of all keys, an open run is read point by point. -/
theorem outcomes_all {key : Key} {metric : String} (named : key.metric = .ok metric)
    (rest : Bytes) (previous : Option Timestamp) :
    OpenRun.outcomes .all ⟨key, rest, previous, false⟩
      = (inOrder previous (pointsIn rest)).map fun found => found.map fun point =>
        ⟨{ key with row := Row.ofPoint metric point.timestamp, timestamp := point.timestamp },
          point.value.toBytes⟩ := by
  have moved : ∀ timestamp : Timestamp, key.atTime timestamp
      = .ok { key with row := Row.ofPoint metric timestamp, timestamp := timestamp } := by
    intro timestamp
    rw [Key.atTime, named]
    rfl
  fun_induction pointsIn rest generalizing previous with
  | case1 rest point later taken ih =>
      rw [outcomes_eq, step, PackedReader.step, if_neg Bool.false_ne_true]
      cases previous with
      | none =>
          simp only [taken, moved, inOrder, List.map_cons, ← ih]
          rfl
      | some last =>
          by_cases behind : point.timestamp ≤ last
          · simp only [taken, inOrder, if_pos behind]
            rfl
          · simp only [taken, moved, inOrder, if_neg behind, List.map_cons, ← ih]
            rfl
  | case2 rest nothing =>
      rw [outcomes_eq, step, PackedReader.step, if_neg Bool.false_ne_true, nothing]
      rfl

/-- In a row that names no metric, an open run is left at its first point. -/
theorem outcomes_of_unnamed {key : Key} {failure : Failure} (unnamed : key.metric = .error failure)
    (range : KeyRange) (bytes : Bytes) :
    OpenRun.outcomes range ⟨key, bytes, none, false⟩
      = if pointsIn bytes = [] then [] else [.error failure] := by
  have stays : ∀ timestamp : Timestamp, key.atTime timestamp = .error failure := by
    intro timestamp
    rw [Key.atTime, unnamed]
    rfl
  rw [outcomes_eq, step, PackedReader.step, if_neg Bool.false_ne_true]
  cases taken : takePoint? bytes with
  | none => rw [pointsIn_of_spent taken]; rfl
  | some found =>
      obtain ⟨point, rest⟩ := found
      rw [pointsIn_of_taken taken, if_neg (List.cons_ne_nil _ _)]
      simp only [stays]

end OpenRun

/-- Over the range of all keys, what is met is all that can be read. -/
theorem Entry.outcomes_all (entry : Entry) : entry.outcomes .all = entry.readout := by
  rw [Entry.outcomes, Entry.readout, PackedReader.ofBytes]
  split
  · by_cases whole : entry.value.length % 16 = 0
    · simp only [if_pos whole]
      cases named : entry.key.metric with
      | ok metric => exact OpenRun.outcomes_all named _ _
      | error failure => exact OpenRun.outcomes_of_unnamed named _ _
    · simp only [if_neg whole]
  · rfl

/-! ## Passing over entries -/

namespace Retained

open Cursor (readings course)

/-- Passing over entries ends in front of an expired one: moving on from another failed. -/
inductive Stumbles (filter : RetentionFilter) (exposed : Entry) :
    List (Entry × Option Failure) → Prop
  | here {passed : Entry} {failure : Failure} {behind : Option Failure}
      {rest : List (Entry × Option Failure)} (expired : filter.accepts passed.key = false)
      (expiredToo : filter.accepts exposed.key = false) :
      Stumbles filter exposed ((passed, some failure) :: (exposed, behind) :: rest)
  | later {passed : Entry} {rest : List (Entry × Option Failure)}
      (expired : filter.accepts passed.key = false) (onward : Stumbles filter exposed rest) :
      Stumbles filter exposed ((passed, none) :: rest)

/-- The entries that are exposed; at first the layer passes over entries or stands on one. -/
def expose (filter : RetentionFilter) : Bool → List (Entry × Option Failure) → List Entry
  | _, [] => []
  | passing, (entry, failure) :: rest =>
      if passing && !filter.accepts entry.key then expose filter failure.isNone rest
      else entry :: expose filter true rest

section

variable {filter : RetentionFilter} {entry : Entry} {failure : Option Failure}
  {rest : List (Entry × Option Failure)}

theorem expose_of_accepted (accepted : filter.accepts entry.key = true) (passing : Bool) :
    expose filter passing ((entry, failure) :: rest) = entry :: expose filter true rest := by
  simp [expose, accepted]

theorem expose_of_expired (expired : filter.accepts entry.key = false) :
    expose filter true ((entry, failure) :: rest) = expose filter failure.isNone rest := by
  simp [expose, expired]

theorem expose_standing : expose filter false ((entry, failure) :: rest)
    = entry :: expose filter true rest := by
  simp [expose]

end

/-- Nothing is exposed twice or out of order. -/
theorem sublist_expose (filter : RetentionFilter) (passing : Bool)
    (met : List (Entry × Option Failure)) :
    (expose filter passing met).Sublist (met.map Prod.fst) := by
  fun_induction expose filter passing met with
  | case1 => exact .slnil
  | case2 passing entry failure rest _ ih => exact ih.cons entry
  | case3 passing entry failure rest _ ih => exact ih.cons_cons entry

/-- No entry that is accepted is passed over. -/
theorem filter_expose (filter : RetentionFilter) (passing : Bool)
    (met : List (Entry × Option Failure)) :
    (expose filter passing met).filter (fun entry => filter.accepts entry.key)
      = (met.map Prod.fst).filter fun entry => filter.accepts entry.key := by
  fun_induction expose filter passing met with
  | case1 => rfl
  | case2 passing entry failure rest skipped ih =>
      have expired : ¬ filter.accepts entry.key = true := by
        simp only [Bool.and_eq_true, Bool.not_eq_true'] at skipped
        simp [skipped.2]
      rw [ih, List.map_cons, List.filter_cons_of_neg (by exact expired)]
  | case3 passing entry failure rest _ ih => simp only [List.map_cons, List.filter_cons, ih]

/-- Just the accepted entries are exposed if no failure is met between two expired entries. -/
theorem expose_eq_filter_iff (filter : RetentionFilter) (met : List (Entry × Option Failure)) :
    expose filter true met = (met.map Prod.fst).filter (fun entry => filter.accepts entry.key)
      ↔ met.IsChain fun first second => first.2 = none ∨ filter.accepts first.1.key = true
        ∨ filter.accepts second.1.key = true := by
  induction met with
  | nil => exact iff_of_true rfl .nil
  | cons reading rest ih =>
      obtain ⟨entry, failure⟩ := reading
      have shorter : failure = none ∨ filter.accepts entry.key = true →
          (((entry, failure) :: rest).IsChain (fun first second => first.2 = none
            ∨ filter.accepts first.1.key = true ∨ filter.accepts second.1.key = true)
            ↔ rest.IsChain fun first second => first.2 = none
              ∨ filter.accepts first.1.key = true ∨ filter.accepts second.1.key = true) := by
        intro harmless
        cases rest with
        | nil => simp
        | cons next rest =>
            rw [List.isChain_cons_cons]
            exact and_iff_right (harmless.imp_right Or.inl)
      cases accepted : filter.accepts entry.key with
      | true =>
          rw [expose_of_accepted accepted, List.map_cons,
            List.filter_cons_of_pos (by exact accepted), shorter (Or.inr accepted), ← ih]
          exact List.cons_inj_right entry
      | false =>
          rw [expose_of_expired accepted, List.map_cons,
            List.filter_cons_of_neg (by simp [accepted])]
          cases failure with
          | none => rw [Option.isNone_none, ih, shorter (Or.inl rfl)]
          | some cause =>
              -- the layer stands on whatever comes next
              cases rest with
              | nil => exact iff_of_true rfl (.singleton _)
              | cons next rest =>
                  obtain ⟨second, behind⟩ := next
                  rw [Option.isNone_some, expose_standing, List.isChain_cons_cons]
                  cases acceptedToo : filter.accepts second.key with
                  | true =>
                      rw [expose_of_accepted acceptedToo] at ih
                      rw [ih]
                      simp
                  | false =>
                      refine iff_of_false (fun same => ?_) (by simp [*])
                      have kept := (List.mem_filter.mp (same ▸ List.mem_cons_self (a := second))).2
                      rw [acceptedToo] at kept
                      cases kept

/-! ## The layer -/

variable {σ : Type} [Cursor σ]

/-- The layer stands on an expired entry exactly if passing over entries stumbles. -/
theorem top_skip_iff (filter : RetentionFilter) (below : σ) (exposed : Entry) :
    Cursor.top (skip filter below).1 = some exposed ∧ filter.accepts exposed.key = false
      ↔ Stumbles filter exposed (readings below) := by
  fun_induction skip filter below with
  | case1 below nothing =>
      rw [Cursor.readings_of_finished nothing, nothing]
      refine iff_of_false ?_ fun stumbles => ?_
      · rintro ⟨stands, _⟩
        cases stands
      · cases stumbles
  | case2 below found here accepted =>
      rw [Cursor.readings_of_top here, here]
      generalize (Cursor.next below).2 = failure
      generalize readings (Cursor.next below).1 = rest
      refine iff_of_false ?_ fun stumbles => ?_
      · rintro ⟨same, expired⟩
        cases same
        rw [accepted] at expired
        cases expired
      · cases stumbles with
        | here expired => rw [accepted] at expired; cases expired
        | later expired => rw [accepted] at expired; cases expired
  | case3 below found here expired later failure stepped =>
      rw [Bool.not_eq_true] at expired
      rw [Cursor.readings_of_top here, stepped, ← Cursor.head?_readings]
      simp only
      generalize readings later = rest
      constructor
      · rintro ⟨stands, expiredToo⟩
        obtain ⟨⟨_, behind⟩, first, rfl⟩ := Option.map_eq_some_iff.mp stands
        obtain ⟨rest, rfl⟩ := List.head?_eq_some_iff.mp first
        exact .here expired expiredToo
      · intro stumbles
        cases stumbles with
        | here _ expiredToo => exact ⟨rfl, expiredToo⟩
  | case4 below found here expired later stepped ih =>
      rw [Bool.not_eq_true] at expired
      rw [ih, Cursor.readings_of_top here, stepped]
      refine ⟨.later expired, fun stumbles => ?_⟩
      cases stumbles with
      | later _ onward => exact onward

/-- What is read on past failures once the layer has settled, and what is read from where it stands. -/
theorem entries_settle (filter : RetentionFilter) (below : σ) :
    (∀ failure, (course (settle filter (below, failure))).entries
        = expose filter true (readings below))
      ∧ (course (Retained.mk below filter, none)).entries = expose filter false (readings below) := by
  fun_induction readings below with
  | case1 below nothing =>
      have standing : readings (Retained.mk below filter) = [] :=
        @Cursor.readings_of_finished _ _ (Retained.mk below filter) nothing
      refine ⟨fun failure => ?_, congrArg (List.map Prod.fst) standing⟩
      rw [settle, skip_of_finished nothing]
      exact congrArg (List.map Prod.fst) standing
  | case2 below entry here ih =>
      obtain ⟨settled, standing⟩ := ih
      -- what the layer stands on is read, and then it settles anew
      have read : ∀ failure, (course (Retained.mk below filter, failure)).entries
          = entry :: expose filter true (readings (Cursor.next below).1) := by
        intro failure
        rw [@Cursor.course_of_top _ _ (Retained.mk below filter) _ here]
        exact congrArg (entry :: ·) (settled (Cursor.next below).2)
      refine ⟨fun failure => ?_, (read none).trans expose_standing.symm⟩
      rw [settle]
      cases accepted : filter.accepts entry.key with
      | true =>
          rw [skip_of_accepted here accepted, expose_of_accepted accepted]
          exact read _
      | false =>
          rw [skip_of_expired here (by simp [accepted]), expose_of_expired accepted]
          cases moved : Cursor.next below with
          | mk later failed =>
              rw [moved] at settled standing
              cases failed with
              | some cause => exact standing
              | none => exact settled failure

/-- A call moves the cursor below and passes over entries. -/
theorem move_eq (call : Cursor.Call) (cursor : Retained σ) :
    call.move cursor = settle cursor.filter (call.move cursor.below) := by
  cases call <;> rfl

/-- **What is exposed over stored entries**, packed runs that cannot be read among them, whatever
calls were made before and went wrong.  After a call the layer stands on an expired entry exactly if
passing over entries stumbled in front of it, which never happens in a call that reports no failure.
A reading of all keys that goes on past failures exposes every entry that is retained, once and in
order; and it exposes no others exactly if no failure is met between two expired entries that follow
each other. -/
theorem exposes (filter : RetentionFilter) (entries : List Entry) (calls : List Cursor.Call) :
    let stored := SortedEntries.ofList entries
    let cursor := Cursor.after calls (Retained.mk (Expanded.above stored) filter)
    let read := Course.ofOutcomes (stored.entries.flatMap Entry.readout)
    (∀ call exposed, Cursor.top (Cursor.Call.move call cursor).1 = some exposed
          ∧ filter.accepts exposed.key = false
        ↔ Stumbles filter exposed (readings (call.move cursor.below).1))
      ∧ (∀ call exposed, (Cursor.Call.move call cursor).2 = none →
        Cursor.top (call.move cursor).1 = some exposed → filter.accepts exposed.key = true)
      ∧ (Cursor.scan .all cursor).Sublist read.entries
      ∧ (Cursor.scan .all cursor).filter (fun entry => filter.accepts entry.key)
        = read.entries.filter (fun entry => filter.accepts entry.key)
      ∧ (Cursor.scan .all cursor = read.entries.filter (fun entry => filter.accepts entry.key)
        ↔ read.readings.IsChain fun first second => first.2 = none
          ∨ filter.accepts first.1.key = true ∨ filter.accepts second.1.key = true) := by
  intro stored cursor read
  -- no call changes the entries or the filter
  have kept := Retained.kept (Expanded.kept (SortedEntries.kept stored.entries)) filter
  obtain ⟨sameFilter, sameEntries⟩ : cursor.filter = filter
      ∧ cursor.below.below.entries = stored.entries := kept.after ⟨rfl, rfl⟩ calls
  have found := SortedEntries.finds_all cursor.below.below
  rw [sameEntries] at found
  have below : course (Cursor.seek .all cursor.below) = read := by
    rw [@Expanded.course_seek _ _ _ .all _ found]
    exact congrArg Course.ofOutcomes (List.flatMap_congr fun entry _ => entry.outcomes_all)
  have scanned : Cursor.scan .all cursor = expose filter true read.readings := by
    rw [← below, ← sameFilter]
    exact (entries_settle cursor.filter (Cursor.seek .all cursor.below).1).1
      (Cursor.seek .all cursor.below).2
  refine ⟨fun call exposed => ?_, fun call exposed fine here => ?_, ?_, ?_, ?_⟩
  · rw [move_eq, sameFilter]
    exact top_skip_iff filter (call.move cursor.below).1 exposed
  · rw [move_eq, sameFilter] at fine here
    exact isRetained_of_skip (Option.or_eq_none_iff.mp fine).1 here
  · rw [scanned]
    exact sublist_expose filter true read.readings
  · rw [scanned]
    exact filter_expose filter true read.readings
  · rw [scanned]
    exact expose_eq_filter_iff filter read.readings

/-- Between two expired entries, a packed run that cannot be read exposes one of them. -/
theorem exposes_of_corrupt :
    let strand : Strand := ⟨"m", "h=a", "", ""⟩
    let filter : RetentionFilter := ⟨.ofDefault 10, 100⟩
    let entries : List Entry := [strand.entryAt ⟨1, ⟨1⟩⟩, ⟨strand.key 2, List.replicate 20 0⟩,
      strand.entryAt ⟨3, ⟨3⟩⟩, strand.entryAt ⟨100, ⟨4⟩⟩]
    let cursor := Retained.mk (Expanded.above (SortedEntries.ofList entries)) filter
    ¬ ∀ exposed ∈ Cursor.scan .all cursor, filter.accepts exposed.key = true := by
  intro strand filter entries cursor accepted
  obtain ⟨_, _, _, same, onlyRetained⟩ := exposes filter entries []
  have chain := onlyRetained.mp ((List.filter_eq_self.mpr accepted).symm.trans same)
  have met : (Course.ofOutcomes
        ((SortedEntries.ofList entries).entries.flatMap Entry.readout)).readings
      = [(strand.entryAt ⟨1, ⟨1⟩⟩, some (.malformed (.packedLength 20))),
        (strand.entryAt ⟨3, ⟨3⟩⟩, none), (strand.entryAt ⟨100, ⟨4⟩⟩, none)] := by
    rw [SortedEntries.entries_ofList (by decide +kernel)]
    decide +kernel
  have first : filter.accepts (strand.key 1) = false := by decide +kernel
  have second : filter.accepts (strand.key 3) = false := by decide +kernel
  rw [met] at chain
  simp [first, second] at chain

end Retained

end TimeSeries
