import TimeSeries.Proofs.Buckets.Grid
import TimeSeries.Proofs.Cursor.Corruption

/-!
# Runs that are lost to a failure

A combining layer collects a run before it presents anything of it.  A failure below in the middle
of that ends the collecting: the run is lost, and the entries behind the failure are a run of their
own.  So of each strip but the last the last run is lost, and no run reaches across a failure
(`Window.keptRuns`).  If the cursor below fails to be sought, everything is lost.

Over stored entries, each corrupt entry therefore costs the points in front of it in its bucket.  A
scan in buckets equals that without the corrupt entries only if it visits none.

Main statement: `Combined.downsampled_past_corrupt`.
-/

set_option autoImplicit false

namespace TimeSeries

open Cursor (readings course)

/-! ## Kept runs -/

namespace Window

variable (window : Window)

/-- The runs that are collected to their ends: no run reaches across a failure, and in front of a
failure a run is lost. -/
def keptRuns : List (List Entry) → List (List Entry)
  | [] => []
  | [strip] => window.cut strip
  | strip :: next :: behind => (window.cut strip).dropLast ++ keptRuns (next :: behind)

/-- The runs that are collected to their ends after a seek, which fails in front of the first strip. -/
def runsPast : List (List Entry) → List (List Entry)
  | [] :: _ :: _ => []
  | strips => window.keptRuns strips

theorem runsPast_of_sought {strips : List (List Entry)}
    (sought : ¬ ∃ strip behind, strips = [] :: strip :: behind) :
    window.runsPast strips = window.keptRuns strips := by
  rw [runsPast]
  exact fun strip behind split => sought ⟨strip, behind, split⟩

theorem cut_nil : window.cut [] = [] := by rw [cut]

theorem cut_ne_nil {entries : List Entry} (some_entries : entries ≠ []) : window.cut entries ≠ [] := by
  cases entries with
  | nil => exact absurd rfl some_entries
  | cons first rest => rw [cut]; exact List.cons_ne_nil _ _

theorem keptRuns_cons {behind : List (List Entry)} (some_strips : behind ≠ []) (strip : List Entry) :
    window.keptRuns (strip :: behind) = (window.cut strip).dropLast ++ window.keptRuns behind := by
  cases behind with
  | nil => exact absurd rfl some_strips
  | cons next behind => rw [keptRuns]

/-- Strips with nothing in them have no runs. -/
theorem keptRuns_tidy (strips : List (List Entry)) :
    window.keptRuns (Course.tidy strips) = window.keptRuns strips := by
  fun_induction Course.tidy strips with
  | case1 strip behind ih =>
      rw [ih, keptRuns, cut_nil]
      rfl
  | case2 strip behind _ ih =>
      cases behind with
      | nil => rw [Course.tidy]
      | cons next behind =>
          rw [keptRuns_cons window (Course.tidy_ne_nil (List.cons_ne_nil next behind)), ih, keptRuns]
  | case3 => rfl

section

variable {first : Entry} {rest : List Entry} {behind : List (List Entry)}

/-- A run that ends within its strip is kept. -/
theorem keptRuns_of_kept
    (kept : behind = [] ∨ ∃ entry ∈ rest, ¬ window.joins first.key entry.key = true) :
    window.keptRuns ((first :: rest) :: behind)
      = (first :: rest.takeWhile fun entry => window.joins first.key entry.key)
        :: window.keptRuns ((rest.dropWhile fun entry => window.joins first.key entry.key) :: behind) := by
  cases behind with
  | nil => rw [keptRuns, keptRuns, cut]
  | cons next behind =>
      obtain ⟨entry, member, apart⟩ := kept.resolve_left (List.cons_ne_nil next behind)
      have more : window.cut (rest.dropWhile fun entry => window.joins first.key entry.key) ≠ [] := by
        refine window.cut_ne_nil fun nothing => apart ?_
        exact List.dropWhile_eq_nil_iff.mp nothing entry member
      rw [keptRuns, keptRuns, cut, List.dropLast_cons_of_ne_nil more, List.cons_append]

/-- The last run in front of a failure is lost. -/
theorem keptRuns_of_lost (some_strips : behind ≠ [])
    (joins : ∀ entry ∈ rest, window.joins first.key entry.key = true) :
    window.keptRuns ((first :: rest) :: behind) = window.keptRuns behind := by
  rw [keptRuns_cons window some_strips, cut, List.dropWhile_eq_nil_iff.mpr joins, cut_nil]
  rfl

end

/-- Every run that is kept is a run of one strip. -/
theorem exists_of_mem_keptRuns {strips : List (List Entry)} {run : List Entry}
    (member : run ∈ window.keptRuns strips) : ∃ strip ∈ strips, run ∈ window.cut strip := by
  fun_induction keptRuns window strips with
  | case1 => cases member
  | case2 strip => exact ⟨strip, List.mem_singleton_self strip, member⟩
  | case3 strip next behind ih =>
      rcases List.mem_append.mp member with here | later
      · exact ⟨strip, List.mem_cons_self, List.dropLast_subset _ here⟩
      · obtain ⟨other, among, found⟩ := ih later
        exact ⟨other, List.mem_cons_of_mem _ among, found⟩

/-- Without entries there are no runs. -/
theorem runsPast_of_nothing {strips : List (List Entry)} (nothing : strips.flatten = []) :
    window.runsPast strips = [] := by
  rw [List.eq_nil_iff_forall_not_mem]
  intro run member
  have kept : run ∈ window.keptRuns strips := by
    unfold runsPast at member
    split at member
    · cases member
    · exact member
  obtain ⟨strip, among, found⟩ := window.exists_of_mem_keptRuns kept
  rw [List.flatten_eq_nil_iff.mp nothing strip among, cut_nil] at found
  cases found

/-- Entries behind some others only make the last run of these longer. -/
theorem exists_cut_append {entries : List Entry} (some_entries : entries ≠ [])
    (others : List Entry) :
    ∃ front first rest longer behind, window.cut entries = front ++ [first :: rest]
      ∧ window.cut (entries ++ others) = front ++ (first :: longer) :: behind := by
  fun_induction Window.cut window entries with
  | case1 => exact absurd rfl some_entries
  | case2 first rest ih =>
      by_cases ends : (rest.dropWhile fun entry => window.joins first.key entry.key) = []
      · exact ⟨[], first, _, _, _, by rw [ends, cut_nil, List.nil_append],
          by rw [List.cons_append, cut, List.nil_append]⟩
      · obtain ⟨front, top, run, longer, behind, short, long⟩ := ih ends
        refine ⟨_ :: front, top, run, longer, behind, by rw [short, List.cons_append], ?_⟩
        have partly : ¬ (rest.takeWhile fun entry => window.joins first.key entry.key).length
            = rest.length := by
          intro whole
          refine ends (List.dropWhile_eq_nil_iff.mpr fun entry member => ?_)
          rw [← (List.takeWhile_prefix _).eq_of_length whole] at member
          exact (List.mem_takeWhile_imp member :)
        rw [List.cons_append, cut, List.takeWhile_append, if_neg partly, List.dropWhile_append,
          if_neg (by simpa using ends), long, List.cons_append]

/-- Where no two entries share a key, a run of all the entries is missed across a failure: its first
key is in no kept run. -/
theorem exists_missed_run {strip next : List Entry} {behind : List (List Entry)}
    (some_entries : (strip :: next :: behind).flatten ≠ [])
    (distinct : ((strip :: next :: behind).flatten.map Entry.key).Nodup) :
    ∃ first longer, first :: longer ∈ window.cut (strip :: next :: behind).flatten
      ∧ ∀ run ∈ window.runsPast (strip :: next :: behind), ∀ source ∈ run,
        source.key ≠ first.key := by
  cases strip with
  | nil =>
      -- nothing is kept at all
      obtain ⟨first, rest, split⟩ := List.exists_cons_of_ne_nil some_entries
      refine ⟨first, _, by rw [split, cut]; exact List.mem_cons_self, fun run kept => ?_⟩
      cases kept
  | cons entry strip =>
      -- the last run in front of the failure is lost, and its first entry with it
      obtain ⟨front, first, rest, longer, later, short, long⟩ :=
        window.exists_cut_append (List.cons_ne_nil entry strip) (next :: behind).flatten
      have whole : ((entry :: strip) :: next :: behind).flatten
          = front.flatten ++ first :: (rest ++ (next :: behind).flatten) := by
        rw [List.flatten_cons, ← window.flatten_cut (entry :: strip), short]
        simp
      rw [whole, (List.perm_middle.map Entry.key).nodup_iff, List.map_cons,
        List.nodup_cons] at distinct
      refine ⟨first, longer, by rw [List.flatten_cons, long]; simp, fun run kept source held key =>
        distinct.1 (List.mem_map.mpr ⟨source, ?_, key⟩)⟩
      rw [window.runsPast_of_sought (by simp), keptRuns, short, List.dropLast_concat] at kept
      rw [List.mem_append, List.mem_append]
      rcases List.mem_append.mp kept with before | past
      · exact Or.inl (List.mem_flatten_of_mem before held)
      · obtain ⟨other, among, found⟩ := window.exists_of_mem_keptRuns past
        exact Or.inr (Or.inr (List.mem_flatten_of_mem among (mem_of_mem_cut found held)))

end Window

/-- What comes of a run of plain entries has a value under the first key. -/
theorem exists_mem_reduceRun (aggregator : Aggregator) {first : Entry} {rest : List Entry}
    (plain : ∀ entry ∈ first :: rest, entry.Plain) :
    ∃ entry ∈ (reduceRun (.aggregate aggregator) (first :: rest)).1, entry.key = first.key := by
  have part : partOf first.key.columns (first :: rest) = first :: partOf first.key.columns rest :=
    List.filter_cons_of_pos (by simp)
  have among := mem_values_splitBySeries.mpr ⟨first.key.columns, part.symm, List.cons_ne_nil _ _⟩
  obtain ⟨value, _, reduced⟩ := Reducer.reducePart_of_plain aggregator fun entry member =>
    plain entry (List.mem_filter.mp (part ▸ member)).1
  refine ⟨⟨first.key, value.toBytes⟩, List.mem_mergeSort.mpr ?_, rfl⟩
  refine List.mem_flatMap.mpr ⟨_, List.mem_map_of_mem among, ?_⟩
  rw [reduced]
  exact List.mem_singleton_self _

/-! ## The layer -/

namespace Combined

section

variable {σ : Type} [Cursor σ]

variable (window : Window) {below : Lookahead σ}

/-- A run that would reach a failure is lost, and what is behind the failure remains. -/
theorem collect_of_lost (first : Key) (run : List Entry) {top : Entry} {rest next : List Entry}
    {behind : List (List Entry)}
    (split : Course.strips (readings below) = (top :: rest) :: next :: behind)
    (joins : ∀ entry ∈ rest, window.joins first entry.key = true) :
    ∃ later cause, collect window first run below = (later, .error cause)
      ∧ Course.strips (readings later) = next :: behind := by
  induction rest generalizing run below top with
  | nil =>
      obtain ⟨cause, onward, read, onwardSplit⟩ := Course.exists_of_strips_end split
      obtain ⟨later, peeked, rfl⟩ := Lookahead.exists_peek_of_failing read
      exact ⟨later, cause, collect_of_failed run peeked, onwardSplit⟩
  | cons second rest ih =>
      obtain ⟨here, others⟩ := List.forall_mem_cons.mp joins
      obtain ⟨ahead, later, peeked, moved, onward⟩ :=
        Lookahead.exists_next_of_strips split (Or.inl (List.cons_ne_nil second rest))
      rw [collect_of_joining run peeked here moved]
      exact ih (second :: run) onward others

/-- What is left of a run is presented first. -/
theorem entries_fill_output {reducer : Reducer} {entries : List Entry}
    (onward : ∀ failure, (course (fill reducer window below [] failure)).entries = entries)
    (output : List Entry) (failure : Option Failure) :
    (course (fill reducer window below output failure)).entries = output ++ entries := by
  induction output generalizing failure with
  | nil => exact onward failure
  | cons entry output ih =>
      rw [fill_cons, @Cursor.course_of_top _ _ (Combined.mk below reducer window (entry :: output)) _ rfl]
      exact congrArg (entry :: ·) (ih none)

/-- Reading on past failures presents what comes of the kept runs. -/
theorem entries_fill (reducer : Reducer) {strips : List (List Entry)}
    (split : Course.strips (readings below) = strips) (failure : Option Failure) :
    (course (fill reducer window below [] failure)).entries
      = (window.keptRuns strips).flatMap fun run => (reduceRun reducer run).1 := by
  induction strips generalizing below failure with
  | nil =>
      obtain ⟨strip, behind, some_strips⟩ := Course.exists_strips (readings below)
      rw [some_strips] at split
      cases split
  | cons strip behind past =>
      fun_induction Window.cut window strip generalizing below failure with
      | case1 =>
          obtain ⟨nothing, rfl⟩ := Course.eq_nil_of_strips split
          rw [fill_of_finished reducer window failure (Cursor.top_of_readings_nil nothing),
            Window.keptRuns, Window.cut_nil]
          exact congrArg (List.map Prod.fst)
            (@Cursor.readings_of_finished _ _ (Combined.mk below reducer window []) rfl)
      | case2 first rest ih =>
          have here : below.top = some first :=
            (Cursor.head?_readings below).symm.trans (Course.head?_of_strips split)
          by_cases kept : behind = [] ∨ ∃ entry ∈ rest, ¬ window.joins first.key entry.key = true
          · obtain ⟨later, collected, onward⟩ := collect_of_kept window first.key [first] split kept
            rw [fill_of_run reducer window failure here collected, Window.keptRuns_of_kept window kept]
            exact entries_fill_output window (fun failure => ih onward failure) _ _
          · obtain ⟨some_strips, joins⟩ := not_or.mp kept
            obtain ⟨next, others, rfl⟩ := List.exists_cons_of_ne_nil some_strips
            have allJoin : ∀ entry ∈ rest, window.joins first.key entry.key = true := by
              simpa using joins
            obtain ⟨later, cause, collected, onward⟩ :=
              collect_of_lost window first.key [first] split allJoin
            rw [fill_of_lost reducer window failure here collected,
              Window.keptRuns_of_lost window some_strips allJoin]
            exact past onward _

/-- What a scan presents, told by what is met below: nothing if the seek fails there. -/
theorem scan_above (reducer : Reducer) (range : KeyRange) (below : σ) :
    Cursor.scan range (above reducer window below)
      = if (course (Cursor.seek range below)).failure = none then
          (window.keptRuns (Course.strips (course (Cursor.seek range below)).readings)).flatMap
            fun run => (reduceRun reducer run).1
        else [] := by
  show (course (Combined.seek range (above reducer window below))).entries = _
  unfold Combined.seek
  rw [show Cursor.seek range (above reducer window below).below
    = (⟨(Cursor.seek range below).1, none⟩, (Cursor.seek range below).2) from rfl]
  obtain ⟨sought, failure⟩ := Cursor.seek range below
  cases failure with
  | none =>
      refine (entries_fill window reducer ?_ none).trans (if_pos rfl).symm
      rw [Lookahead.readings_eq]
      rfl
  | some cause =>
      refine Eq.trans ?_ (if_neg (Option.some_ne_none cause)).symm
      exact congrArg (List.map Prod.fst)
        (@Cursor.readings_of_finished _ _ (Combined.mk _ reducer window []) rfl)

end

/-! ## Over stored entries -/

/-- Over stored entries a scan presents what comes of the runs between the corrupt ones. -/
theorem scan_of_sound {entries : List Entry}
    (sound : ∀ entry ∈ entries, entry.isCorrupt = true ∨ entry.Valid) (reducer : Reducer)
    (window : Window) (range : KeyRange) :
    Cursor.scan range (above reducer window (Expanded.above (SortedEntries.ofList entries)))
      = (window.runsPast (Expanded.strips range (Expanded.visited range entries))).flatMap
        fun run => (reduceRun reducer run).1 := by
  obtain ⟨strips, fine⟩ := Expanded.course_strips sound range
  rw [scan_above, strips, Window.keptRuns_tidy]
  by_cases failing : ∃ strip behind,
      Expanded.strips range (Expanded.visited range entries) = [] :: strip :: behind
  · rw [if_neg (mt fine.mp (not_not.mpr failing))]
    obtain ⟨strip, behind, split⟩ := failing
    rw [split]
    rfl
  · rw [if_pos (fine.mpr failing), Window.runsPast_of_sought window failing]

/-- Across a failure, one run at least comes to nothing. -/
theorem scan_ne_combine (aggregator : Aggregator) (window : Window) {strip next : List Entry}
    {behind : List (List Entry)}
    (plain : ∀ entry ∈ (strip :: next :: behind).flatten, entry.Plain)
    (some_entries : (strip :: next :: behind).flatten ≠ [])
    (distinct : ((strip :: next :: behind).flatten.map Entry.key).Nodup) :
    ((window.runsPast (strip :: next :: behind)).flatMap
        fun run => (reduceRun (.aggregate aggregator) run).1)
      ≠ combine (.aggregate aggregator) window (strip :: next :: behind).flatten := by
  intro same
  obtain ⟨first, longer, among, missed⟩ := window.exists_missed_run some_entries distinct
  obtain ⟨output, found, key⟩ := exists_mem_reduceRun aggregator fun entry member =>
    plain entry (Window.mem_of_mem_cut among member)
  have shown : output ∈ combine (.aggregate aggregator) window
      (strip :: next :: behind).flatten := List.mem_flatMap.mpr ⟨_, among, found⟩
  rw [← same] at shown
  obtain ⟨run, kept, reduced⟩ := List.mem_flatMap.mp shown
  obtain ⟨source, held, sourceKey⟩ := exists_key_of_mem_reduceRun reduced
  exact missed run kept source held (sourceKey.trans key)

/-- **A scan in buckets past corrupt entries.**  Of the readable points, cut into runs strip by strip,
the scan loses the last run in front of each corrupt entry, and everything if a corrupt entry is
visited before any point.  Where no two points share a key, it presents what it would without the
corrupt entries exactly if it visits none of them or there are no points. -/
theorem downsampled_past_corrupt {entries : List Entry}
    (sound : ∀ entry ∈ entries, entry.isCorrupt = true ∨ entry.Valid) (downsampling : Downsampling)
    (range : KeyRange) :
    let scanner (entries : List Entry) :=
      downsampled downsampling (Expanded.above (SortedEntries.ofList entries))
    let damaged := Cursor.scan range (scanner entries)
    let mended := Cursor.scan range (scanner (entries.filter fun entry => !entry.isCorrupt))
    let strips := Expanded.strips range (Expanded.visited range entries)
    damaged = ((downsampling.window.runsPast strips).flatMap
        fun run => (reduceRun (.aggregate downsampling.aggregator) run).1)
      ∧ mended = combine (.aggregate downsampling.aggregator) downsampling.window strips.flatten
      ∧ ((∀ entry ∈ Expanded.visited range entries, entry.isCorrupt = false)
          ∨ strips.flatten = [] → damaged = mended)
      ∧ ((strips.flatten.map Entry.key).Nodup → damaged = mended →
        (∀ entry ∈ Expanded.visited range entries, entry.isCorrupt = false)
          ∨ strips.flatten = []) := by
  intro scanner damaged mended strips
  have plain : ∀ entry ∈ strips.flatten, entry.Plain := fun entry member =>
    Expanded.plain_of_mem_strips sound member
  have damagedScan : damaged = (downsampling.window.runsPast strips).flatMap
      fun run => (reduceRun (.aggregate downsampling.aggregator) run).1 :=
    scan_of_sound sound _ _ range
  have mendedScan : mended = combine (.aggregate downsampling.aggregator) downsampling.window
      strips.flatten := by
    refine (scan_of_sound (fun entry member => sound entry (List.mem_filter.mp member).1) _ _
      range).trans ?_
    rw [Expanded.strips_mended, Window.runsPast_of_sought _ (by simp)]
    rfl
  refine ⟨damagedScan, mendedScan, fun harmless => ?_, fun distinct same => ?_⟩
  · rw [damagedScan, mendedScan]
    rcases harmless with unharmed | nothing
    · obtain ⟨strip, alone⟩ := (Expanded.strips_eq_singleton_iff range _).mpr unharmed
      rw [show strips = [strip] from alone, Window.runsPast_of_sought _ (by simp), Window.keptRuns,
        List.flatten_singleton]
      rfl
    · rw [nothing, downsampling.window.runsPast_of_nothing nothing, combine, Window.cut_nil]
  · rw [damagedScan, mendedScan] at same
    by_contra harmful
    obtain ⟨corrupt, some_entries⟩ := not_or.mp harmful
    rw [← Expanded.strips_eq_singleton_iff] at corrupt
    obtain ⟨strip, others, split⟩ := Expanded.exists_strips range (Expanded.visited range entries)
    cases others with
    | nil => exact corrupt ⟨strip, split⟩
    | cons next behind =>
        rw [show strips = _ from split] at plain some_entries distinct same
        exact scan_ne_combine _ _ plain some_entries distinct same

/-- With a corrupt entry between its points, a bucket has the points behind it alone. -/
theorem downsampled_past_corrupt_in_bucket :
    let strand : Strand := ⟨"m", "h=a", "", ""⟩
    let downsampling : Downsampling := ⟨10, .sum, by decide⟩
    let entries : List Entry := [strand.entryAt ⟨1, ⟨1⟩⟩, ⟨strand.key 2, List.replicate 20 0⟩,
      strand.entryAt ⟨3, ⟨3⟩⟩]
    let scanner (entries : List Entry) :=
      downsampled downsampling (Expanded.above (SortedEntries.ofList entries))
    (∀ entry ∈ entries, entry.isCorrupt = true ∨ entry.Valid)
      ∧ (Cursor.scan .all (scanner entries)).map Entry.key = [strand.key 3]
      ∧ (Cursor.scan .all (scanner (entries.filter fun entry => !entry.isCorrupt))).map Entry.key
        = [strand.key 1] := by
  intro strand downsampling entries scanner
  have sound : ∀ entry ∈ entries, entry.isCorrupt = true ∨ entry.Valid := by
    have valid := strand.valid_entryAt
    simp only [entries, List.forall_mem_cons]
    exact ⟨Or.inr (valid _), Or.inl (by decide +kernel), Or.inr (valid _), by simp⟩
  obtain ⟨damaged, mended, _⟩ := downsampled_past_corrupt sound downsampling .all
  have sorted : (SortedEntries.ofList entries).entries = entries :=
    SortedEntries.entries_ofList (by decide +kernel)
  refine ⟨sound, ?_, ?_⟩
  · rw [damaged, Expanded.visited, sorted]
    decide +kernel
  · rw [mended, Expanded.visited, sorted]
    decide +kernel

end Combined

end TimeSeries
