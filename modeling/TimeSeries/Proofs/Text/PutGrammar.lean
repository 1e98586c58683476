import Mathlib.Data.List.Forall2
import TimeSeries.Proofs.Maps.Lists
import TimeSeries.Proofs.Text.Numerals
import TimeSeries.PutLine

/-!
# The grammar of put lines

A line puts a sample if it consists of these words: the word `put`, which may be missing, a metric
without zero characters, an integer, a decimal number or one of the named values, and tags, of which
at least one is not the visibility (`PutLine.Puts`).  The first equals sign of a tag parts its key
from its value, in which there may be more of them.  Of tags with one key the last counts, and the
same holds of visibilities.  The integer counts seconds or milliseconds, and the product must be a
timestamp.

Main statement: `PutLine.parse_line_grammar`, that reading a line finds the sample that it puts, and
that a line that puts none does not have the form of put lines.
-/

set_option autoImplicit false

namespace TimeSeries

/-! ## Tags -/

namespace PutLine

/-- The word is a key, an equals sign and a value, neither of which is empty. -/
structure IsTag (word : String) (tag : String × String) : Prop where
  parts : word.toList = tag.1.toList ++ '=' :: tag.2.toList
  first : '=' ∉ tag.1.toList
  key : tag.1 ≠ ""
  value : tag.2 ≠ ""

theorem tagOf?_eq_some_iff {word : String} {tag : String × String} :
    tagOf? word = some tag ↔ IsTag word tag := by
  obtain ⟨key, value⟩ := tag
  constructor
  · intro found
    rw [tagOf?] at found
    split at found
    case h_1 mark char rest behind =>
      split at found
      case isTrue => cases found
      case isFalse filled =>
        cases found
        obtain rfl := Text.eq_mark_of_dropWhile behind
        obtain ⟨parts, first⟩ := Text.takeWhile_dropWhile_iff.mp ⟨rfl, behind⟩
        refine ⟨by simpa using parts, by simpa using first, ?_, ?_⟩
        · rwa [ne_eq, String.ofList_eq_empty_iff, ← List.isEmpty_iff]
        · simp [String.ofList_eq_empty_iff]
    case h_2 => cases found
  · rintro ⟨parts, first, filled, some_value⟩
    obtain ⟨front, behind⟩ := Text.takeWhile_dropWhile_iff.mpr ⟨parts, first⟩
    rw [tagOf?, front, behind]
    cases letters : value.toList with
    | nil => exact absurd (String.toList_eq_nil_iff.mp letters) some_value
    | cons char rest =>
        have named : ¬key.toList.isEmpty = true := by
          rw [List.isEmpty_iff, String.toList_eq_nil_iff]
          exact filled
        simp only
        rw [if_neg named, ← letters, String.ofList_toList, String.ofList_toList]

/-- Words are added if all of them are tags, and then the tags are added in turn. -/
theorem addTags_eq_ok_iff {words : List String} {series read : Series} :
    addTags series words = .ok read ↔ ∃ tags, List.Forall₂ IsTag words tags
      ∧ read = tags.foldl (fun series tag => series.withTag tag.1 tag.2) series := by
  induction words generalizing series with
  | nil =>
      rw [addTags]
      constructor
      · intro same
        cases same
        exact ⟨[], .nil, rfl⟩
      · rintro ⟨_, spelled, rfl⟩
        cases spelled
        rfl
  | cons word words ih =>
      rw [addTags]
      constructor
      · intro added
        split at added
        case h_1 key value here =>
          obtain ⟨tags, spelled, rfl⟩ := ih.mp added
          exact ⟨(key, value) :: tags, .cons (tagOf?_eq_some_iff.mp here) spelled, rfl⟩
        case h_2 => cases added
      · rintro ⟨_, spelled, rfl⟩
        cases spelled with
        | cons here spelled =>
            rw [tagOf?_eq_some_iff.mpr here]
            exact ih.mpr ⟨_, spelled, rfl⟩

/-- Every tag is spelled by a word. -/
theorem exists_isTag {words : List String} {tags : List (String × String)}
    (spelled : List.Forall₂ IsTag words tags) {tag : String × String} (member : tag ∈ tags) :
    ∃ word, IsTag word tag := by
  induction spelled with
  | nil => cases member
  | cons here _ ih =>
      obtain rfl | member := List.mem_cons.mp member
      · exact ⟨_, here⟩
      · exact ih member

/-- The last of the tags with a key has the value. -/
def LastOf (tags : List (String × String)) (key value : String) : Prop :=
  ∃ before after, tags = before ++ (key, value) :: after ∧ ∀ tag ∈ after, tag.1 ≠ key

theorem LastOf.mem {tags : List (String × String)} {key value : String}
    (last : LastOf tags key value) : (key, value) ∈ tags := by
  obtain ⟨before, after, rfl, _⟩ := last
  exact List.mem_append_right _ List.mem_cons_self

/-- The tags name the series: it has the last value of each key but the visibility, which has the
last value of its own key. -/
structure Names (tags : List (String × String)) (series : Series) : Prop where
  tag_iff : ∀ key value,
    series.tags.get? key = some value ↔ key ≠ visibilityTag ∧ LastOf tags key value
  visibility_iff : ∀ value, series.visibility = some value ↔ LastOf tags visibilityTag value

theorem lastOf_concat {tags : List (String × String)} {tag : String × String} {key value : String} :
    LastOf (tags ++ [tag]) key value
      ↔ if tag.1 = key then tag.2 = value else LastOf tags key value := by
  simp only [LastOf, ← SortedMap.lookup_reverse_eq_some_iff, List.reverse_append,
    List.reverse_singleton, List.singleton_append]
  split
  case isTrue same =>
    subst same
    rw [SortedMap.lookup_cons_self, Option.some.injEq]
  case isFalse other =>
    rw [SortedMap.lookup_cons_of_ne _ _ (Ne.symm other)]

theorem exists_lastOf_iff {tags : List (String × String)} {key : String} :
    (∃ value, LastOf tags key value) ↔ ∃ tag ∈ tags, tag.1 = key := by
  simp only [LastOf, ← SortedMap.lookup_reverse_eq_some_iff]
  rw [← Option.isSome_iff_exists, ← Option.ne_none_iff_isSome, ne_eq, SortedMap.lookup_eq_none_iff]
  simp

theorem names_nil (metric : String) : Names [] (Series.ofMetric metric) := by
  have none_last (key value : String) : ¬LastOf [] key value := by
    rintro ⟨before, after, same, _⟩
    simp at same
  exact ⟨fun key value => ⟨nofun, fun last => absurd last.2 (none_last key value)⟩,
    fun value => ⟨nofun, fun last => absurd last (none_last _ value)⟩⟩

/-- One more tag behind the others names the series with this tag. -/
theorem Names.withTag {tags : List (String × String)} {series : Series}
    (names : Names tags series) (tag : String × String) :
    Names (tags ++ [tag]) (series.withTag tag.1 tag.2) := by
  unfold Series.withTag
  split
  case isTrue hidden =>
    refine ⟨fun key value => ?_, fun value => ?_⟩
    · rw [names.tag_iff, lastOf_concat]
      refine and_congr_right fun other => ?_
      rw [if_neg (by rw [hidden]; exact Ne.symm other)]
    · rw [lastOf_concat, if_pos hidden, Option.some.injEq]
  case isFalse shown =>
    refine ⟨fun key value => ?_, fun value => ?_⟩
    · rw [SortedMap.get?_insert, lastOf_concat]
      by_cases same : key = tag.1
      · subst same
        simp [shown]
      · rw [if_neg same, if_neg (Ne.symm same), names.tag_iff]
    · rw [lastOf_concat, if_neg shown, names.visibility_iff]

/-- Tags added in turn to a metric name the series. -/
theorem names_foldl (metric : String) (tags : List (String × String)) :
    Names tags (tags.foldl (fun series tag => series.withTag tag.1 tag.2)
        (Series.ofMetric metric))
      ∧ (tags.foldl (fun series tag => series.withTag tag.1 tag.2)
        (Series.ofMetric metric)).metric = metric := by
  induction tags using List.reverseRecOn with
  | nil => exact ⟨names_nil metric, rfl⟩
  | append_singleton tags tag ih =>
      rw [List.foldl_append, List.foldl_cons, List.foldl_nil]
      refine ⟨ih.1.withTag tag, ?_⟩
      rw [Series.withTag]
      split <;> exact ih.2

/-- Two series of one metric that the same tags name are the same. -/
theorem Names.unique {tags : List (String × String)} {first second : Series}
    (names : Names tags first) (too : Names tags second) (metric : first.metric = second.metric) :
    first = second := by
  obtain ⟨_, _, _⟩ := first
  obtain ⟨_, _, _⟩ := second
  cases metric
  congr 1
  · refine SortedMap.ext_get? fun key => Option.ext fun value => ?_
    exact (names.tag_iff key value).trans (too.tag_iff key value).symm
  · exact Option.ext fun value =>
      (names.visibility_iff value).trans (too.visibility_iff value).symm

/-- A series has a tag exactly if one of the tags that name it is not the visibility. -/
theorem Names.isEmpty_iff {tags : List (String × String)} {series : Series}
    (names : Names tags series) :
    series.tags.isEmpty = true ↔ ∀ tag ∈ tags, tag.1 = visibilityTag := by
  rw [SortedMap.isEmpty, List.isEmpty_iff, List.eq_nil_iff_forall_not_mem]
  constructor
  · intro empty tag member
    by_contra shown
    obtain ⟨value, last⟩ := exists_lastOf_iff.mpr ⟨tag, member, rfl⟩
    have held := (names.tag_iff tag.1 value).mpr ⟨shown, last⟩
    exact empty _ ((SortedMap.mem_toList_iff _ _ _).mpr held)
  · rintro hidden ⟨key, value⟩ member
    have held := (SortedMap.mem_toList_iff _ _ _).mp member
    obtain ⟨shown, last⟩ := (names.tag_iff key value).mp held
    obtain ⟨tag, among, rfl⟩ := exists_lastOf_iff.mp ⟨value, last⟩
    exact shown (hidden tag among)

end PutLine

/-! ## Words -/

/-- The number of milliseconds in a unit. -/
def Precision.millis : Precision → Int
  | .seconds => 1000
  | .milliseconds => 1

theorem Precision.toTimestamp?_eq_some_iff {precision : Precision} {time timestamp : Timestamp} :
    precision.toTimestamp? time = some timestamp
      ↔ timestamp.toInt = time.toInt * precision.millis := by
  cases precision with
  | seconds => exact Timestamp.ofInt?_eq_some_iff
  | milliseconds =>
      rw [toTimestamp?, millis, Int.mul_one, Int64.toInt_inj, Option.some.injEq]
      exact eq_comm

namespace PutLine

variable {precision : Precision} {sample : Sample} {words : List String}

/-- The words are a metric, a time, a value and tags, and these make the sample. -/
inductive Makes (precision : Precision) (sample : Sample) : List String → Prop
  | words {metric time value : String} {tagWords : List String} {tags : List (String × String)}
      {number : Int} (zeroFree : '\x00' ∉ metric.toList) (metric_eq : sample.series.metric = metric)
      (timed : Text.WritesInt time.toList number)
      (timestamp : sample.point.timestamp.toInt = number * precision.millis)
      (valued : Text.WritesValue value.toList sample.point.value)
      (tagged : List.Forall₂ IsTag tagWords tags) (shown : ∃ tag ∈ tags, tag.1 ≠ visibilityTag)
      (named : Names tags sample.series) :
      Makes precision sample (metric :: time :: value :: tagWords)

/-- What is read of enough words. -/
theorem ofFields_cons (metric time value : String) (tags : List String) :
    ofFields precision (metric :: time :: value :: tags)
      = if metric.toList.contains '\x00' then .error .metricWithNul
        else match Text.readTimestamp? time,
            (Text.readTimestamp? time).bind precision.toTimestamp?, Text.readValue? value with
          | none, _, _ => .error .timestampInvalid
          | some _, none, _ => .error .timestampOutOfRange
          | some _, some _, none => .error .valueInvalid
          | some _, some timestamp, some value =>
              match addTags (Series.ofMetric metric) tags with
              | .error defect => .error defect
              | .ok series =>
                  if series.tags.isEmpty then .error .noTag
                  else .ok ⟨series, ⟨timestamp, value⟩⟩ := by
  rw [ofFields]
  by_cases zero : metric.toList.contains '\x00' = true
  · rw [if_pos zero, if_pos zero]
    rfl
  rw [if_neg zero, if_neg zero]
  cases Text.readTimestamp? time with
  | none => rfl
  | some number =>
      simp only [Option.bind_some]
      cases precision.toTimestamp? number with
      | none => rfl
      | some timestamp =>
          cases Text.readValue? value with
          | none => rfl
          | some value =>
              cases addTags (Series.ofMetric metric) tags with
              | error defect => rfl
              | ok series =>
                  cases empty : series.tags.isEmpty <;>
                    simp [bind, Except.bind, empty, pure, Except.pure, throw, throwThe,
                      MonadExceptOf.throw]

/-- Fewer words than a metric, a time and a value are no sample. -/
theorem exists_cons_of_ofFields (read : ofFields precision words = .ok sample) :
    ∃ metric time value tags, words = metric :: time :: value :: tags := by
  match words with
  | [] => cases read
  | [metric] =>
      rw [ofFields] at read
      split at read <;> cases read
  | [metric, time] =>
      rw [ofFields] at read
      split at read
      · cases read
      · cases timed : Text.readTimestamp? time with
        | none => simp [timed] at read
        | some number =>
            cases stamped : precision.toTimestamp? number <;> simp [timed, stamped] at read
  | metric :: time :: value :: tags => exact ⟨metric, time, value, tags, rfl⟩

/-- The sample that is read of some words is the one that they make. -/
theorem ofFields_eq_ok_iff :
    ofFields precision words = .ok sample ↔ Makes precision sample words := by
  constructor
  · intro read
    obtain ⟨metric, time, value, tagWords, rfl⟩ := exists_cons_of_ofFields read
    rw [ofFields_cons] at read
    split at read
    case isTrue => cases read
    case isFalse zeroFree =>
      split at read
      case h_4 number timestamp value' timed stamped valued =>
        split at read
        case h_1 => cases read
        case h_2 series added =>
          split at read
          case isTrue => cases read
          case isFalse some_tag =>
            cases read
            obtain ⟨tags, tagged, rfl⟩ := addTags_eq_ok_iff.mp added
            obtain ⟨named, metric_eq⟩ := names_foldl metric tags
            rw [timed, Option.bind_some] at stamped
            refine .words (by simpa using zeroFree) metric_eq
              (Text.readTimestamp?_eq_some_iff.mp timed)
              (Precision.toTimestamp?_eq_some_iff.mp stamped)
              (Text.readValue?_eq_some_iff.mp valued) tagged ?_ named
            by_contra hidden
            push Not at hidden
            exact some_tag (named.isEmpty_iff.mpr hidden)
      all_goals cases read
  · intro makes
    cases makes with
    | @words metric time value tagWords tags number zeroFree metric_eq timed timestamp valued tagged
        shown named =>
        -- The product is in range, and so is the number.
        have number_inRange : ∃ stamp : Timestamp, stamp.toInt = number := by
          have above := sample.point.timestamp.toInt_lt
          have below := sample.point.timestamp.le_toInt
          refine ⟨Int64.ofInt number, Int64.toInt_ofInt_of_le ?_ ?_⟩ <;>
            cases precision <;> simp only [Precision.millis] at timestamp <;> omega
        obtain ⟨stamp, rfl⟩ := number_inRange
        have added : addTags (Series.ofMetric metric) tagWords = .ok sample.series := by
          obtain ⟨too, sameMetric⟩ := names_foldl metric tags
          exact addTags_eq_ok_iff.mpr
            ⟨tags, tagged, named.unique too (metric_eq.trans sameMetric.symm)⟩
        have some_tag : ¬sample.series.tags.isEmpty = true := by
          obtain ⟨tag, member, other⟩ := shown
          exact fun empty => other (named.isEmpty_iff.mp empty tag member)
        rw [ofFields_cons, if_neg (by simpa using zeroFree),
          Text.readTimestamp?_eq_some_iff.mpr timed, Option.bind_some,
          Precision.toTimestamp?_eq_some_iff.mpr timestamp,
          Text.readValue?_eq_some_iff.mpr valued]
        simp only [added, if_neg some_tag]

/-! ## Lines -/

/-- The line consists of words that make the sample, behind the word `put` if it is there. -/
def Puts (precision : Precision) (line : String) (sample : Sample) : Prop :=
  ∃ words : List String, Makes precision sample words
    ∧ (Text.SpacesOut line.toList (("put" :: words).map String.toList)
      ∨ words.head? ≠ some "put" ∧ Text.SpacesOut line.toList (words.map String.toList))

theorem fields_eq_iff {line : String} :
    fields line = words ↔ Text.words line = "put" :: words
      ∨ words.head? ≠ some "put" ∧ Text.words line = words := by
  rw [fields]
  cases Text.words line with
  | nil => cases words <;> simp
  | cons word rest =>
      by_cases keyword : word = "put"
      · subst keyword
        simp only [↓reduceIte, List.cons.injEq, true_and]
        constructor
        · exact .inl
        · rintro (same | ⟨other, rfl⟩)
          · exact same
          · exact absurd rfl other
      · simp only [keyword, ↓reduceIte, List.cons.injEq, false_and, false_or]
        constructor
        · rintro rfl
          exact ⟨by simpa using keyword, rfl⟩
        · exact And.right

theorem parse_eq_ok_iff {line : String} :
    parse line precision = .ok sample ↔ Puts precision line sample := by
  have read : parse line precision = .ok sample
      ↔ ofFields precision (fields line) = .ok sample := by
    rw [parse]
    cases ofFields precision (fields line) <;> simp
  rw [read, ofFields_eq_ok_iff, Puts]
  simp only [← Text.words_eq_iff, ← fields_eq_iff]
  constructor
  · exact fun makes => ⟨_, makes, rfl⟩
  · rintro ⟨_, makes, rfl⟩
    exact makes

/-- **The grammar of put lines.**  A line is read as the sample that it puts, and a line that puts
none is refused for its form. -/
theorem parse_line_grammar (line : String) (precision : Precision) :
    (∀ sample, parse line precision = .ok sample ↔ Puts precision line sample)
      ∧ ((∃ defect, parse line precision = .error (.format (.line defect line)))
        ↔ ¬∃ sample, Puts precision line sample) := by
  refine ⟨fun _ => parse_eq_ok_iff, ?_⟩
  simp only [← parse_eq_ok_iff]
  rw [parse]
  cases ofFields precision (fields line) <;> simp

end PutLine

end TimeSeries
