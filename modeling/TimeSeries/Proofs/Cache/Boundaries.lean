import TimeSeries.Proofs.Cache.RawAnswers

/-!
# The boundary of retention

Whether a point is retained is decided in three places.  Scans and compactions of tables compare the
age of the point with the retention of its metric; queries of the cache start no earlier than the
oldest timestamp that is retained; and maintenance keeps an archived block by comparing that same
timestamp with its last one.  The age is one difference and the oldest timestamp is another, and each
stays at the end of the range of timestamps that it would leave.

The oldest timestamp is exact all the same, since a retention is not negative: nothing lies in front
of the earliest timestamp (`Retention.oldestRetained_le_iff`).  The age is not.  An age that no
timestamp can express is taken for the greatest one, which the greatest retention just admits, so
under that retention everything is retained (`Retention.retains_iff`).

Main statement: `Retention.boundaries`, by which the three decisions differ there and nowhere else.
-/

set_option autoImplicit false

namespace TimeSeries

namespace Retention

variable {retention : Retention}

/-- A timestamp reaches the oldest one that is retained exactly if its age, as an integer, does not
exceed the retention. -/
theorem oldestRetained_le_iff (valid : retention.validate = .ok ()) (metric : String)
    (timestamp now : Timestamp) :
    retention.oldestRetained metric now ≤ timestamp
      ↔ now.toInt - timestamp.toInt ≤ (retention.forMetric metric).toInt := by
  rw [oldestRetained, Timestamp.saturatingSub_le_iff (forMetric_nonneg valid metric)]
  omega

/-- A point is retained exactly if its age, as an integer, does not exceed the retention, or if that
is the greatest there is. -/
theorem retains_iff (valid : retention.validate = .ok ()) (metric : String)
    (timestamp now : Timestamp) :
    retention.retains metric timestamp now = true
      ↔ now.toInt - timestamp.toInt ≤ (retention.forMetric metric).toInt
        ∨ retention.forMetric metric = Timestamp.latest := by
  have positive := forMetric_nonneg valid metric
  have high := (retention.forMetric metric).toInt_lt
  have zero : (0 : Timestamp).toInt = 0 := rfl
  have least : Timestamp.earliest.toInt = -2 ^ 63 := by decide
  have greatest : Timestamp.latest.toInt = 2 ^ 63 - 1 := by decide
  rw [Int64.le_iff_toInt_le, zero] at positive
  rw [retains, decide_eq_true_iff, Int64.le_iff_toInt_le, Timestamp.toInt_saturatingSub,
    ← Int64.toInt_inj, least, greatest]
  omega

end Retention

/-- Maintenance keeps an archived block exactly if its last timestamp reaches the oldest one that is
retained. -/
theorem SeriesLog.mem_ageOff_iff {log : SeriesLog} {block : Block} (archived : block ∈ log.archived)
    (now length : Timestamp) :
    block ∈ (log.ageOff now length).archived ↔ now.saturatingSub length ≤ block.last := by
  rw [ageOff, List.mem_filter, decide_eq_true_iff]
  exact and_iff_right archived

/-- **The boundary of retention.**  Under a valid retention the archived blocks with a last timestamp
are kept by maintenance exactly if queries reach that timestamp, that is if its age does not exceed
the retention.  Tables retain all of that.  Besides, they retain what is older only if the retention
of the metric is the greatest length of time and the age is greater still; so the three agree on a
timestamp exactly if this is not so. -/
theorem Retention.boundaries {retention : Retention} (valid : retention.validate = .ok ())
    (metric : String) (timestamp now : Timestamp) :
    let length := retention.forMetric metric
    let reached := retention.oldestRetained metric now ≤ timestamp
    let retained := retention.retains metric timestamp now = true
    (∀ (log : SeriesLog) (block : Block), block ∈ log.archived → block.last = timestamp →
        (block ∈ (log.ageOff now length).archived ↔ reached))
      ∧ (∀ key : Key, key.metric = .ok metric → key.timestamp = timestamp →
        ((RetentionFilter.mk retention now).accepts key = true ↔ retained))
      ∧ (reached ↔ now.toInt - timestamp.toInt ≤ length.toInt)
      ∧ (reached → retained)
      ∧ ((retained ↔ reached)
        ↔ ¬ (length = Timestamp.latest ∧ length.toInt < now.toInt - timestamp.toInt)) := by
  intro length reached retained
  have exactly : reached ↔ now.toInt - timestamp.toInt ≤ length.toInt :=
    oldestRetained_le_iff valid metric timestamp now
  have besides : retained ↔ now.toInt - timestamp.toInt ≤ length.toInt
      ∨ length = Timestamp.latest := retains_iff valid metric timestamp now
  refine ⟨fun log block archived last => ?_, fun key named time => ?_, exactly, fun within => ?_, ?_⟩
  · rw [SeriesLog.mem_ageOff_iff archived, last]
    rfl
  · rw [RetentionFilter.accepts, named, time]
  · exact besides.mpr (Or.inl (exactly.mp within))
  · rw [besides, exactly, not_and, Int.not_lt]
    exact ⟨fun agree greatest => agree.mp (Or.inr greatest), fun agree => or_iff_left_of_imp agree⟩

/-- Under the greatest retention, tables retain the earliest timestamp at time zero, and maintenance
drops it. -/
theorem Retention.boundaries_of_greatest :
    let retention := Retention.ofDefault Timestamp.latest
    retention.retains "m" Timestamp.earliest 0 = true
      ∧ ¬ retention.oldestRetained "m" 0 ≤ Timestamp.earliest := by
  intro retention
  have valid : retention.validate = .ok () := by decide
  obtain ⟨_, _, reached, _, agree⟩ := boundaries valid "m" Timestamp.earliest 0
  have unreached : ¬ retention.oldestRetained "m" 0 ≤ Timestamp.earliest :=
    mt reached.mp (by decide)
  refine ⟨?_, unreached⟩
  by_contra dropped
  exact agree.mp (iff_of_false dropped unreached) (by decide)

end TimeSeries
