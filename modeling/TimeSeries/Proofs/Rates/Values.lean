import TimeSeries.Proofs.Cache.RawAnswers
import TimeSeries.Proofs.Cursor.Separation

/-!
# Rates of points

A layer of rates goes from point to point.  Of points in time order it makes one rate for each two
that follow each other, under the timestamp of the later one (`RateOptions.ratesOf`), and of several
rates under one timestamp the last counts, as of several points.

Values by timestamp do not show how many points share a timestamp, but rates depend on it.  Where a
point has its timestamp for itself, the rate is that from the neighbour before it among the values,
since of the points at the timestamp before the last one counts for both.  Where several points
share a timestamp, no time passes between the last two of them, and the rate is zero.

Main statements: `RateOptions.get?_ratesOf_iff` and `Scan.pointsOf_rates`.
-/

set_option autoImplicit false

namespace TimeSeries

/-! ## From point to point -/

namespace RateOptions

/-- The rates from each point to the next, under the timestamp of the later one. -/
def ratesOf (options : RateOptions) : List Point → List Point
  | previous :: current :: rest =>
      ⟨current.timestamp, options.rate previous current⟩ :: options.ratesOf (current :: rest)
  | _ => []

variable (options : RateOptions)

theorem rate_of_same {previous current : Point} (same : previous.timestamp = current.timestamp) :
    options.rate previous current = .zero := by
  rw [rate, same]
  exact if_pos (Int64.sub_self _)

/-- A point in the middle ends the rates before it and begins those behind it. -/
theorem ratesOf_append (front : List Point) (point : Point) (rest : List Point) :
    options.ratesOf (front ++ point :: rest)
      = options.ratesOf (front ++ [point]) ++ options.ratesOf (point :: rest) := by
  induction front with
  | nil => rfl
  | cons first front ih =>
      cases front with
      | nil => rfl
      | cons second front =>
          exact congrArg (⟨second.timestamp, options.rate first second⟩ :: ·) ih

/-- There is a rate at the timestamp of each point but the first. -/
theorem timestamps_ratesOf (first : Point) (rest : List Point) :
    (options.ratesOf (first :: rest)).map Point.timestamp = rest.map Point.timestamp := by
  induction rest generalizing first with
  | nil => rfl
  | cons second rest ih => exact congrArg (second.timestamp :: ·) (ih second)

theorem lastValue?_ratesOf_eq_none {first : Point} {rest : List Point} {timestamp : Timestamp}
    (elsewhere : ∀ point ∈ rest, point.timestamp ≠ timestamp) :
    lastValue? (options.ratesOf (first :: rest)) timestamp = none := by
  refine lastValue?_eq_none_iff.mpr fun rated member same => ?_
  have listed : timestamp ∈ (options.ratesOf (first :: rest)).map Point.timestamp :=
    List.mem_map.mpr ⟨rated, member, same⟩
  rw [timestamps_ratesOf] at listed
  obtain ⟨point, member, same⟩ := List.mem_map.mp listed
  exact elsewhere point member same

/-- The rate to the last point with a timestamp is the one that counts there. -/
theorem lastValue?_ratesOf (front : List Point) (previous : Point) {last : Point}
    {behind : List Point} (later : ∀ point ∈ behind, last.timestamp < point.timestamp) :
    lastValue? (options.ratesOf (front ++ previous :: last :: behind)) last.timestamp
      = some (options.rate previous last) := by
  have elsewhere : lastValue? (options.ratesOf (last :: behind)) last.timestamp = none :=
    options.lastValue?_ratesOf_eq_none fun point member =>
      (Int64.ne_of_lt (later point member)).symm
  rw [ratesOf_append, ratesOf, lastValue?_append, lastValue?_cons, elsewhere, Option.none_or,
    if_pos rfl]
  rfl

end RateOptions

/-! ## Told from values -/

/-- Several points have the timestamp. -/
def SharedAt (points : List Point) (timestamp : Timestamp) : Prop :=
  1 < points.countP fun point => point.timestamp = timestamp

instance (points : List Point) (timestamp : Timestamp) : Decidable (SharedAt points timestamp) :=
  inferInstanceAs (Decidable (_ < _))

/-- The rate from the neighbour before a timestamp to the value there. -/
def RateOptions.FromNeighbour (options : RateOptions) (values : TimedValues)
    (timestamp : Timestamp) (rate : Binary64) : Prop :=
  ∃ (earlier : Point) (value : Binary64),
    [(earlier.timestamp, earlier.value), (timestamp, value)] <:+: values.toList
      ∧ rate = options.rate earlier ⟨timestamp, value⟩

/-- The rate at a timestamp, told from the values of some points: zero where several of the points
share the timestamp, and otherwise the rate from the neighbour before it. -/
def RateOptions.RateAt (options : RateOptions) (points : List Point) (values : TimedValues)
    (timestamp : Timestamp) (rate : Binary64) : Prop :=
  if SharedAt points timestamp then rate = .zero else options.FromNeighbour values timestamp rate

/-- There is a rate somewhere if there are two values, or several points share a timestamp. -/
theorem RateOptions.exists_rateAt_iff (options : RateOptions) (points : List Point)
    (values : TimedValues) :
    (∃ timestamp rate, options.RateAt points values timestamp rate)
      ↔ 2 ≤ values.size ∨ ∃ timestamp, SharedAt points timestamp := by
  constructor
  · rintro ⟨timestamp, rate, rated⟩
    by_cases shared : SharedAt points timestamp
    · exact Or.inr ⟨timestamp, shared⟩
    · rw [RateAt, if_neg shared] at rated
      obtain ⟨earlier, value, neighbours, _⟩ := rated
      exact Or.inl neighbours.length_le
  · have rated : ∀ timestamp rate, options.FromNeighbour values timestamp rate →
        ∃ timestamp rate, options.RateAt points values timestamp rate := by
      intro timestamp rate found
      by_cases shared : SharedAt points timestamp
      · exact ⟨timestamp, .zero, by rw [RateAt, if_pos shared]⟩
      · exact ⟨timestamp, rate, by rwa [RateAt, if_neg shared]⟩
    rintro (several | ⟨timestamp, shared⟩)
    · match listed : values.toList with
      | [] | [_] => simp [SortedMap.size, listed] at several
      | (time, value) :: (timestamp, next) :: rest =>
          refine rated timestamp (options.rate ⟨time, value⟩ ⟨timestamp, next⟩)
            ⟨⟨time, value⟩, next, ?_, rfl⟩
          exact listed ▸ ⟨[], rest, rfl⟩
    · exact ⟨timestamp, .zero, by rw [RateAt, if_pos shared]⟩

namespace TimedValues

theorem neighbours_iff {values : TimedValues} {earlier : Point} {timestamp : Timestamp}
    {value : Binary64} :
    [(earlier.timestamp, earlier.value), (timestamp, value)] <:+: values.toList
      ↔ values.get? earlier.timestamp = some earlier.value
        ∧ values.get? timestamp = some value ∧ earlier.timestamp < timestamp
        ∧ ∀ between, earlier.timestamp < between → between < timestamp →
            values.get? between = none := by
  rw [SortedMap.infix_toList_iff]
  simp only [Std.compare_eq_lt]

/-- A value has one neighbour before it. -/
theorem eq_of_neighbours {values : TimedValues} {first second : Point} {timestamp : Timestamp}
    {value other : Binary64}
    (here : [(first.timestamp, first.value), (timestamp, value)] <:+: values.toList)
    (there : [(second.timestamp, second.value), (timestamp, other)] <:+: values.toList) :
    first = second ∧ value = other := by
  obtain ⟨firstHeld, valueHeld, firstBefore, nothingBehindFirst⟩ := neighbours_iff.mp here
  obtain ⟨secondHeld, otherHeld, secondBefore, nothingBehindSecond⟩ := neighbours_iff.mp there
  have times : first.timestamp = second.timestamp := by
    refine Int64.le_antisymm (Int64.not_lt.mp fun above => ?_) (Int64.not_lt.mp fun below => ?_)
    · rw [nothingBehindSecond _ above firstBefore] at firstHeld
      cases firstHeld
    · rw [nothingBehindFirst _ below secondBefore] at secondHeld
      cases secondHeld
  rw [times, secondHeld] at firstHeld
  rw [valueHeld] at otherHeld
  obtain ⟨firstTime, firstValue⟩ := first
  cases times
  cases firstHeld
  exact ⟨rfl, Option.some.inj otherHeld⟩

end TimedValues

section Ordered

variable {first : Point} {rest : List Point}

/-- A timestamp belongs to none of the points behind the first, or one of these is the last point
that has it. -/
theorem exists_last_at (ordered : (first :: rest).Pairwise Point.NotAfter) (timestamp : Timestamp) :
    (∀ point ∈ rest, point.timestamp ≠ timestamp)
      ∨ ∃ front previous last behind, first :: rest = front ++ previous :: last :: behind
        ∧ last.timestamp = timestamp ∧ ∀ point ∈ behind, timestamp < point.timestamp := by
  induction rest generalizing first with
  | nil => exact Or.inl fun _ member => absurd member List.not_mem_nil
  | cons second rest ih =>
      have onward := ordered.tail
      rcases ih onward with elsewhere | ⟨front, previous, last, behind, split, here, later⟩
      · by_cases here : second.timestamp = timestamp
        · refine Or.inr ⟨[], first, second, rest, rfl, here, fun point member => ?_⟩
          have notAfter : second.timestamp ≤ point.timestamp :=
            (List.pairwise_cons.mp onward).1 point member
          exact Int64.lt_of_le_of_ne (here ▸ notAfter) (elsewhere point member).symm
        · exact Or.inl (List.forall_mem_cons.mpr ⟨here, elsewhere⟩)
      · exact Or.inr ⟨first :: front, previous, last, behind, by rw [split]; rfl, here, later⟩

variable {front behind : List Point} {previous last : Point}

/-- Two points at different timestamps are neighbours if the second is the last one of its own. -/
theorem neighbours_of_split
    (ordered : (front ++ previous :: last :: behind).Pairwise Point.NotAfter)
    (apart : previous.timestamp < last.timestamp)
    (later : ∀ point ∈ behind, last.timestamp < point.timestamp) :
    [(previous.timestamp, previous.value), (last.timestamp, last.value)]
      <:+: (TimedValues.ofPoints (front ++ previous :: last :: behind)).toList := by
  have notBefore : ∀ timestamp ≤ last.timestamp, lastValue? behind timestamp = none :=
    fun timestamp below => lastValue?_eq_none_iff.mpr fun point member same =>
      Int64.not_lt.mpr below (same ▸ later point member)
  rw [TimedValues.neighbours_iff]
  simp only [TimedValues.get?_ofPoints, lastValue?_append, lastValue?_cons]
  refine ⟨?_, ?_, apart, fun timestamp above below => ?_⟩
  · rw [notBefore _ (Int64.le_of_lt apart), if_neg (Int64.ne_of_lt apart).symm, if_pos trivial]
    rfl
  · rw [notBefore _ (Int64.le_refl _), if_pos trivial]
    rfl
  · have before : lastValue? front timestamp = none := by
      refine lastValue?_eq_none_iff.mpr fun point member same => ?_
      have notAfter : point.timestamp ≤ previous.timestamp :=
        (List.pairwise_append.mp ordered).2.2 point member previous List.mem_cons_self
      exact Int64.not_lt.mpr notAfter (same ▸ above)
    rw [notBefore _ (Int64.le_of_lt below), if_neg (Int64.ne_of_lt below).symm,
      if_neg (Int64.ne_of_lt above), before]
    rfl

/-- The timestamp of the last of two neighbours is shared if the first has it, too. -/
theorem sharedAt_of_split (ordered : (front ++ previous :: last :: behind).Pairwise Point.NotAfter)
    (later : ∀ point ∈ behind, last.timestamp < point.timestamp) :
    SharedAt (front ++ previous :: last :: behind) last.timestamp
      ↔ previous.timestamp = last.timestamp := by
  have none_behind : behind.countP (fun point => point.timestamp = last.timestamp) = 0 := by
    refine List.countP_eq_zero.mpr fun point member same => ?_
    exact Int64.ne_of_lt (later point member) (of_decide_eq_true same).symm
  rw [SharedAt, List.countP_append, List.countP_cons, List.countP_cons, none_behind]
  by_cases same : previous.timestamp = last.timestamp
  · simp [same]
  · have none_before : front.countP (fun point => point.timestamp = last.timestamp) = 0 := by
      refine List.countP_eq_zero.mpr fun point member here => ?_
      obtain ⟨_, pairs, before⟩ := List.pairwise_append.mp ordered
      have toPrevious : point.timestamp ≤ previous.timestamp :=
        before point member previous List.mem_cons_self
      have toLast : previous.timestamp ≤ last.timestamp :=
        (List.pairwise_cons.mp pairs).1 last List.mem_cons_self
      rw [of_decide_eq_true here] at toPrevious
      exact same (Int64.le_antisymm toLast toPrevious)
    simp [same, none_before]

/-- Only the first point may have a timestamp that no other has and that has no rate. -/
theorem RateOptions.not_rateAt_of_elsewhere (options : RateOptions)
    (ordered : (first :: rest).Pairwise Point.NotAfter) {timestamp : Timestamp}
    (elsewhere : ∀ point ∈ rest, point.timestamp ≠ timestamp) (rate : Binary64) :
    ¬ options.RateAt (first :: rest) (.ofPoints (first :: rest)) timestamp rate := by
  have none_behind : rest.countP (fun point => point.timestamp = timestamp) = 0 :=
    List.countP_eq_zero.mpr fun point member same =>
      elsewhere point member (of_decide_eq_true same)
  have alone : ¬ SharedAt (first :: rest) timestamp := by
    rw [SharedAt, List.countP_cons, none_behind]
    split <;> decide
  rw [RateAt, if_neg alone]
  rintro ⟨earlier, value, neighbours, _⟩
  obtain ⟨held, here, before, _⟩ := TimedValues.neighbours_iff.mp neighbours
  have firstHere : first.timestamp = timestamp := by
    by_contra apart
    have nothing : lastValue? (first :: rest) timestamp = none :=
      lastValue?_eq_none_iff.mpr (List.forall_mem_cons.mpr ⟨apart, elsewhere⟩)
    rw [TimedValues.get?_ofPoints, nothing] at here
    cases here
  -- nothing comes before the first point
  have nothing : lastValue? (first :: rest) earlier.timestamp = none := by
    refine lastValue?_eq_none_iff.mpr (List.forall_mem_cons.mpr ⟨?_, fun point member same => ?_⟩)
    · exact firstHere ▸ (Int64.ne_of_lt before).symm
    · have notAfter : first.timestamp ≤ point.timestamp :=
        (List.pairwise_cons.mp ordered).1 point member
      rw [firstHere, same] at notAfter
      exact Int64.not_lt.mpr notAfter before
  rw [TimedValues.get?_ofPoints, nothing] at held
  cases held

end Ordered

/-- **The rates of points in time order**, told from the values that the points have by timestamp:
each timestamp that several points share has the rate zero, each other one the rate from its
neighbour, and there are no more rates. -/
theorem RateOptions.get?_ratesOf_iff (options : RateOptions) {points : List Point}
    (ordered : points.Pairwise Point.NotAfter) (timestamp : Timestamp) (rate : Binary64) :
    (TimedValues.ofPoints (options.ratesOf points)).get? timestamp = some rate
      ↔ options.RateAt points (.ofPoints points) timestamp rate := by
  rw [TimedValues.get?_ofPoints]
  cases points with
  | nil =>
      constructor
      · intro found
        cases found
      · intro rated
        have alone : ¬ SharedAt [] timestamp := Nat.not_lt_zero 1
        rw [RateAt, if_neg alone] at rated
        obtain ⟨earlier, value, neighbours, _⟩ := rated
        exact absurd neighbours.length_le (Nat.not_succ_le_zero 1)
  | cons first rest =>
      rcases exists_last_at ordered timestamp with elsewhere
        | ⟨front, previous, last, behind, split, rfl, later⟩
      · rw [options.lastValue?_ratesOf_eq_none elsewhere]
        constructor
        · intro found
          cases found
        · exact fun rated =>
            absurd rated (options.not_rateAt_of_elsewhere ordered elsewhere rate)
      · rw [split] at ordered ⊢
        rw [options.lastValue?_ratesOf front previous later, Option.some.injEq, RateAt,
          if_congr (sharedAt_of_split ordered later) rfl rfl]
        split
        case isTrue same => rw [options.rate_of_same same, eq_comm]
        case isFalse apart =>
            have notAfter : previous.timestamp ≤ last.timestamp :=
              (List.pairwise_cons.mp (List.pairwise_append.mp ordered).2.1).1 last
                List.mem_cons_self
            have neighbours :=
              neighbours_of_split ordered (Int64.lt_of_le_of_ne notAfter apart) later
            constructor
            · rintro rfl
              exact ⟨previous, last.value, neighbours, rfl⟩
            · rintro ⟨earlier, value, others, rfl⟩
              obtain ⟨rfl, rfl⟩ := TimedValues.eq_of_neighbours neighbours others
              rfl

/-- There are rates if there are two values, or if several points share a timestamp. -/
theorem RateOptions.ratesOf_ne_nil_iff (options : RateOptions) {points : List Point}
    (ordered : points.Pairwise Point.NotAfter) :
    options.ratesOf points ≠ []
      ↔ 2 ≤ (TimedValues.ofPoints points).size ∨ ∃ timestamp, SharedAt points timestamp := by
  rw [← options.exists_rateAt_iff]
  simp only [← options.get?_ratesOf_iff ordered, TimedValues.get?_ofPoints]
  constructor
  · intro some_rates
    obtain ⟨rated, member⟩ := List.exists_mem_of_ne_nil _ some_rates
    refine ⟨rated.timestamp, Option.ne_none_iff_exists'.mp fun nothing => ?_⟩
    exact lastValue?_eq_none_iff.mp nothing rated member rfl
  · rintro ⟨timestamp, rate, found⟩ nothing
    rw [nothing] at found
    cases found

/-! ## The layer over the entries of a series -/

section Entries

variable (series : Series) (options : RateOptions)

theorem HeldSeries.point_entryOf (point : Point) : (entryOf series point).point = point := by
  rw [Entry.point, entryOf, Binary64.ofBytes_toBytes]
  rfl

/-- Behind a point, the values along entries are the rates from point to point. -/
theorem Filtered.valuesAlong_rate (seen : List Point) (previous : Point) (rest : List Point) :
    valuesAlong (.rate options) (seen ++ [previous]) (rest.map (HeldSeries.entryOf series))
      = (options.ratesOf (previous :: rest)).map (HeldSeries.entryOf series) := by
  induction rest generalizing seen previous with
  | nil => rfl
  | cons current rest ih =>
      have window : latest (MovingFilter.rate options).size ((seen ++ [previous]) ++ [current])
          = [previous, current] := by
        rw [List.append_assoc]
        exact List.drop_left' (by simp [MovingFilter.rate])
      rw [List.map_cons, valuesAlong_cons, HeldSeries.point_entryOf, window, ih]
      rfl

/-- What one window makes of the entries of points in time order are the entries of their rates. -/
theorem Filtered.slide_rate {points : List Point} (ordered : points.Pairwise Point.NotAfter) :
    slide (.rate options) .silent [] (points.map (HeldSeries.entryOf series))
      = (options.ratesOf points).map (HeldSeries.entryOf series) := by
  have read : (points.map (HeldSeries.entryOf series)).map Entry.point = points := by
    rw [List.map_map]
    exact (List.map_congr_left fun point _ => HeldSeries.point_entryOf series point).trans
      (List.map_id _)
  have values := slide_latest (.rate options) .silent [] (points.map (HeldSeries.entryOf series))
    (by rw [read]; exact ordered)
  rw [latest_nil] at values
  rw [values]
  cases points with
  | nil => rfl
  | cons first rest =>
      rw [List.map_cons, valuesAlong_cons, HeldSeries.point_entryOf]
      exact valuesAlong_rate series options [] first rest

/-- The entries of a series belong to one window. -/
theorem Filtered.inWindow_entries (points : List Point) :
    inWindow .series [series.metric, Column.join series.tags.toList, "",
        series.visibility.getD ""] (points.map (HeldSeries.entryOf series))
      = points.map (HeldSeries.entryOf series) := by
  refine List.filter_eq_self.mpr fun entry member => ?_
  obtain ⟨point, _, rfl⟩ := List.mem_map.mp member
  rw [Scope.windowOf, show (HeldSeries.entryOf series point).key.metric = .ok series.metric from
    Row.metric_ofPoint _ _]
  exact decide_eq_true rfl

end Entries

/-! ## Subqueries and scans -/

/-- A subquery with rates and without buckets leaves the rates. -/
theorem Subquery.process_rates {subquery : Subquery} (rated : subquery.rate = true)
    (series : Series) {points : List Point} (ordered : points.Pairwise Point.NotAfter) :
    subquery.process none (points.map (HeldSeries.entryOf series))
      = .ok ((subquery.rateOptions.ratesOf points).map (HeldSeries.entryOf series)) := by
  have rates := Filtered.finds_slide (show Cursor.Finds (Filtered.rates subquery.rateOptions
      (SortedEntries.ofList (points.map (HeldSeries.entryOf series)))).below .all _ from
        HeldSeries.finds_entries series ordered)
    (fun _ => HeldSeries.plain_of_mem_entries) (Filtered.inWindow_entries series points)
  rw [process, if_pos rated, ← Filtered.slide_rate series subquery.rateOptions ordered]
  exact Cursor.readAll_of_finds rates

/-- A scan with rates and without buckets makes of a log the rates of its points. -/
theorem Scan.pointsOf_rates {scan : Scan} (rated : scan.subquery.rate = true)
    (whole : scan.downsampling = none) {held : HeldSeries} {contents : LogContents}
    (holds : held.log.Holds contents) (series : Series) :
    scan.pointsOf series held
      = .ok (.ofPoints (scan.subquery.rateOptions.ratesOf
          (contents.kept.filter (Point.isWithin scan.start scan.stop)))) := by
  refine pointsOf_of_process holds series fun ordered => ?_
  rw [whole, Subquery.process_rates rated series ordered]

end TimeSeries
