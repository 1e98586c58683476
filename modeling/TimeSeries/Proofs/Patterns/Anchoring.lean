import TimeSeries.Cache.Settings.Basic
import TimeSeries.Proofs.Patterns.Filters
import TimeSeries.Proofs.Patterns.Readings

/-!
# Anchored patterns

To find a text as a whole, its pattern is written between a caret with an opening parenthesis and a
closing one with a dollar sign, and what this writes is read and looked for.

If the text is a pattern on its own, what is read is that pattern between the two ends
(`Pattern.anchored`), which is found in the values that the pattern describes as a whole
(`Pattern.isFoundIn_anchored`).  Reading the text in front of the closing is reading it alone, so it
is no pattern only if it closes the group that was opened in front of it
(`Pattern.ofWhole?_cases`, `Pattern.ClosesUnopened`).  Then its branches fall apart: the first one
has the caret and the last one the dollar sign.

Main statement: `Pattern.accepted_texts_anchored`, for the texts of a tag filter and for those of
the metrics that are not kept in a cache.
-/

set_option autoImplicit false

namespace TimeSeries.Pattern

/-! ## Texts as a whole -/

/-- The pattern between the start and the end of a text. -/
def anchored (own : Pattern) : Pattern :=
  sequence (assertion .unicode .textStart)
    (sequence own (sequence (assertion .unicode .textEnd) empty))

theorem before_of_mem_onward {char : Char} {rest : List Char} {spot : Spot}
    (member : spot ∈ Spot.onward (some char) rest) : spot.before.isNone = false := by
  induction rest generalizing char with
  | nil =>
      obtain rfl := List.mem_singleton.mp member
      rfl
  | cons next rest ih =>
      obtain rfl | member := List.mem_cons.mp member
      · rfl
      · exact ih member

/-- Only at the start of a text there is no character in front. -/
theorem mem_allIn_of_isNone {text : String} {spot : Spot} (member : spot ∈ Spot.allIn text)
    (first : spot.before.isNone = true) : spot = ⟨none, text.toList⟩ := by
  rw [Spot.allIn] at member
  cases letters : text.toList with
  | nil =>
      rw [letters] at member
      exact List.mem_singleton.mp member
  | cons char rest =>
      rw [letters] at member
      obtain same | member := List.mem_cons.mp member
      · exact same
      · rw [before_of_mem_onward member] at first
        cases first

theorem start_mem_allIn (text : String) : ⟨none, text.toList⟩ ∈ Spot.allIn text := by
  rw [Spot.allIn]
  cases text.toList with
  | nil => exact List.mem_singleton_self _
  | cons char rest => exact List.mem_cons_self

theorem isFoundIn_iff {pattern : Pattern} (ordered : pattern.Ordered) (text : String) :
    pattern.isFoundIn text = true
      ↔ ∃ start ∈ Spot.allIn text, ∃ finish, pattern.Leads start finish := by
  rw [isFoundIn, Bool.not_eq_true', ← Bool.not_eq_true, List.isEmpty_iff, ← ne_eq]
  constructor
  · intro filled
    obtain ⟨finish, reached⟩ := List.exists_mem_of_ne_nil _ filled
    obtain ⟨start, member, leads⟩ := (mem_reach_iff ordered _ finish).mp reached
    exact ⟨start, member, finish, leads⟩
  · rintro ⟨start, member, finish, leads⟩
    exact List.ne_nil_of_mem ((mem_reach_iff ordered _ finish).mpr ⟨start, member, leads⟩)

/-- An anchored pattern is found in the texts that the pattern describes as a whole. -/
theorem isFoundIn_anchored {own : Pattern} (ordered : own.Ordered) (text : String) :
    own.anchored.isFoundIn text = true ↔ own.Describes text := by
  have anchored_ordered : own.anchored.Ordered := ⟨trivial, ordered, trivial, trivial⟩
  rw [isFoundIn_iff anchored_ordered]
  constructor
  · rintro ⟨start, member, finish, middle, ⟨rfl, first⟩, last, leads, _, ⟨rfl, ended⟩, rfl⟩
    obtain rfl := mem_allIn_of_isNone member first
    exact ⟨finish, leads, List.isEmpty_iff.mp ended⟩
  · rintro ⟨finish, leads, ended⟩
    exact ⟨_, start_mem_allIn text, finish, _, ⟨rfl, rfl⟩, finish, leads, finish,
      ⟨rfl, List.isEmpty_iff.mpr ended⟩, rfl⟩

/-! ## Reading between anchors -/

/-- The text closes a group that it does not open: reading it stops there. -/
def ClosesUnopened (text : String) : Prop :=
  ∃ part names rest, readBranches (text.toList.length + 1) .initial [] [] [] text.toList
    = some (part, names, ')' :: rest)

/-- An end that starts with a parenthesis, of a text with a closing behind it, has the closing in
it. -/
theorem closing_suffix {chars rest : List Char} (suffix : ')' :: rest <:+ chars ++ closing) :
    ∃ kept, ')' :: rest = kept ++ closing := by
  obtain short | whole :=
    List.suffix_or_suffix_of_suffix suffix (List.suffix_append chars closing)
  · obtain same | shorter := List.suffix_cons_iff.mp short
    · exact ⟨[], same⟩
    · obtain same | shorter := List.suffix_cons_iff.mp shorter
      · cases same
      · cases List.suffix_nil.mp shorter
  · exact exists_front (List.nil_append closing ▸ whole)

/-- The text in front is read first, and then its group is closed. -/
theorem readBranches_opened (fuel : Nat) (chars : List Char) :
    readBranches (fuel + 2) .initial [] [] [] ('^' :: '(' :: '?' :: ':' :: chars)
      = (readBranches fuel .initial [] [] [] chars).bind
          (close fuel .initial [] [.part ⟨.assertion .unicode .textStart, 0⟩]) := by
  have caret : token? .initial [] ('^' :: '(' :: '?' :: ':' :: chars)
      = some (.item ⟨.assertion .unicode .textStart, 0⟩, '(' :: '?' :: ':' :: chars) := rfl
  have group : token? .initial [] ('(' :: '?' :: ':' :: chars)
      = some (.opening .initial [], chars) := rfl
  rw [readBranches_of_token rfl (by decide), caret, Option.bind_some, follow,
    readBranches_of_token rfl (by decide), group, Option.bind_some, follow]

/-- A dollar sign is the last item of the sequence that it ends. -/
theorem readBranches_dollar (fuel : Nat) (names : List String) (items : List Item) :
    readBranches (fuel + 2) .initial names [] items ['$']
      = some (finished [] (.part ⟨.assertion .unicode .textEnd, 0⟩ :: items), names, []) := by
  have dollar : token? .initial names ['$']
      = some (.item ⟨.assertion .unicode .textEnd, 0⟩, []) := rfl
  rw [readBranches_of_token rfl (by decide), dollar, Option.bind_some, follow,
    readBranches_of_nil rfl]

theorem read?_eq_some_iff {chars : List Char} {pattern : Pattern} :
    read? chars = some pattern
      ↔ ∃ part names,
        readBranches (chars.length + 1) .initial [] [] [] chars = some (part, names, [])
          ∧ part.depth ≤ greatestDepth ∧ part.pattern.size ≤ greatestSize
          ∧ part.pattern = pattern := by
  rw [read?]
  constructor
  · intro found
    split at found
    case h_1 part names read =>
      split at found
      case isTrue within =>
        cases found
        exact ⟨part, names, read, within.1, within.2, rfl⟩
      case isFalse => cases found
    case h_2 => cases found
  · rintro ⟨part, names, read, shallow, small, rfl⟩
    rw [read]
    exact if_pos ⟨shallow, small⟩

theorem read?_ordered {chars : List Char} {pattern : Pattern} (found : read? chars = some pattern) :
    pattern.Ordered := by
  obtain ⟨part, names, read, _, _, rfl⟩ := read?_eq_some_iff.mp found
  exact readBranches_ordered .start read

theorem finished_anchored (part : Part) :
    finished [] [.part ⟨.assertion .unicode .textEnd, 0⟩, .part ⟨part.pattern, part.depth + 1⟩,
        .part ⟨.assertion .unicode .textStart, 0⟩]
      = ⟨part.pattern.anchored, part.depth + 2⟩ := by
  have depth : [0, part.depth + 1, 0].foldl max 0 + 1 = part.depth + 2 := by
    simp
  rw [← depth]
  rfl

theorem size_le_anchored (own : Pattern) : own.size ≤ own.anchored.size := by
  simp only [anchored, size]
  omega

/-- What was read in front of a closing was read of the text. -/
theorem readBranches_of_closing {fuel : Nat} {chars kept : List Char} {part : Part}
    {names : List String} (found : readBranches fuel .initial [] [] [] (chars ++ closing)
      = some (part, names, kept ++ closing)) :
    readBranches (chars.length + 1) .initial [] [] [] chars = some (part, names, kept) := by
  have alone := (local_readBranches fuel .initial [] [] [] chars).eq_some
    (congrArg (Option.map paired) found)
  obtain ⟨⟨part, names, kept⟩, read, same⟩ := Option.map_eq_some_iff.mp alone
  cases same
  exact readBranches_settled read (Nat.lt_succ_self _)

/-- A text that is accepted between anchors is a pattern on its own that is anchored there, or else
it closes a group that it does not open. -/
theorem ofWhole?_cases {text : String} {pattern : Pattern}
    (accepted : ofWhole? text = some pattern) :
    (∃ own, read? text.toList = some own ∧ pattern = own.anchored)
      ∨ (read? text.toList = none ∧ ClosesUnopened text) := by
  have written : "^(?:".toList ++ text.toList ++ ")$".toList
      = '^' :: '(' :: '?' :: ':' :: (text.toList ++ closing) := by simp [closing]
  rw [ofWhole?, written] at accepted
  obtain ⟨whole, names, read, shallow, small, rfl⟩ := read?_eq_some_iff.mp accepted
  have rounds : ('^' :: '(' :: '?' :: ':' :: (text.toList ++ closing)).length + 1
      = (text.toList ++ closing).length + 1 + 2 + 2 := rfl
  rw [rounds, readBranches_opened] at read
  obtain ⟨⟨part, named, behind⟩, inside, closed⟩ := Option.bind_eq_some_iff.mp read
  obtain ⟨rest, rfl, ends⟩ := close_eq_some_iff.mp closed
  have suffix : ')' :: rest <:+ text.toList ++ closing :=
    (local_readBranches _ .initial [] [] [] _).leaves (congrArg (Option.map paired) inside)
  obtain ⟨kept, same⟩ := closing_suffix suffix
  rw [same] at inside
  have alone := readBranches_of_closing inside
  cases kept with
  | nil =>
      cases same
      rw [readBranches_dollar] at ends
      cases ends
      rw [finished_anchored] at shallow small ⊢
      have shallow : part.depth ≤ greatestDepth := Nat.le_trans (Nat.le_add_right _ 2) shallow
      have small : part.pattern.size ≤ greatestSize := Nat.le_trans (size_le_anchored _) small
      exact .inl ⟨_, read?_eq_some_iff.mpr ⟨part, _, alone, shallow, small, rfl⟩, rfl⟩
  | cons char kept =>
      cases same
      refine .inr ⟨?_, part, named, kept, alone⟩
      rw [read?, alone]

/-! ## What an accepted text finds -/

/-- A text that is a pattern on its own finds the values that this describes as a whole, and another
text finds what is found where it stands between anchors. -/
def Fits (text value : String) : Prop :=
  match read? text.toList with
  | some own => own.Describes value
  | none => ∃ pattern, ofWhole? text = some pattern ∧ pattern.isFoundIn value = true

theorem fits_iff {text : String} {pattern : Pattern} (accepted : ofWhole? text = some pattern)
    (value : String) : Fits text value ↔ pattern.isFoundIn value = true := by
  unfold Fits
  obtain ⟨own, alone, rfl⟩ | ⟨alone, _⟩ := ofWhole?_cases accepted
  · rw [alone]
    exact (isFoundIn_anchored (read?_ordered alone) value).symm
  · simp [alone, accepted]

theorem read?_eq_none_iff_of_accepted {text : String} {pattern : Pattern}
    (accepted : ofWhole? text = some pattern) :
    read? text.toList = none ↔ ClosesUnopened text := by
  constructor
  · intro alone
    obtain ⟨own, known, _⟩ | ⟨_, closes⟩ := ofWhole?_cases accepted
    · rw [alone] at known
      cases known
    · exact closes
  · rintro ⟨part, names, rest, stops⟩
    rw [read?, stops]

section

variable {patterns : SortedMap String String} {filter : TagFilter}

/-- Every text of a filter is accepted. -/
theorem exists_ofWhole?_of_compile (compiled : TagFilter.compile patterns = .ok filter)
    {key text : String} (asked : patterns.get? key = some text) :
    ∃ pattern, ofWhole? text = some pattern := by
  obtain ⟨pattern, member⟩ := TagFilter.exists_mem_patterns compiled asked
  obtain ⟨other, same, known⟩ := (TagFilter.mem_patterns_iff compiled).mp member
  cases asked.symm.trans same
  exact ⟨pattern, known⟩

theorem accepts_iff_fits (compiled : TagFilter.compile patterns = .ok filter) (tags : Tags) :
    filter.accepts tags = true ↔ ∀ key text, patterns.get? key = some text →
      ∃ value, tags.get? key = some value ∧ Fits text value := by
  rw [TagFilter.accepts_iff_of_compile compiled]
  refine forall_congr' fun key => forall_congr' fun text => forall_congr' fun asked => ?_
  obtain ⟨pattern, known⟩ := exists_ofWhole?_of_compile compiled asked
  constructor
  · rintro ⟨other, value, same, found, fits⟩
    cases known.symm.trans same
    exact ⟨value, found, (fits_iff known value).mpr fits⟩
  · rintro ⟨value, found, fits⟩
    exact ⟨pattern, value, known, found, (fits_iff known value).mp fits⟩

end

section

variable {settings : CacheSettings} {exclusions : List Pattern}

/-- The patterns of excluded metrics are those of their texts. -/
theorem map_exclusions (compiled : settings.exclusions = .ok exclusions) :
    settings.excludedMetrics.map ofWhole? = exclusions.map some := by
  rw [CacheSettings.exclusions] at compiled
  refine map_eq_of_mapM compiled fun text pattern read => ?_
  split at read
  case h_1 found =>
    cases read
    exact found
  case h_2 => cases read

/-- Every text of excluded metrics is accepted. -/
theorem exists_mem_exclusions (compiled : settings.exclusions = .ok exclusions) {text : String}
    (member : text ∈ settings.excludedMetrics) :
    ∃ pattern ∈ exclusions, ofWhole? text = some pattern := by
  have written := List.mem_map_of_mem member (f := ofWhole?)
  rw [map_exclusions compiled, List.mem_map] at written
  exact written.imp fun _ found => ⟨found.1, found.2.symm⟩

theorem excludes_iff_fits (compiled : settings.exclusions = .ok exclusions) (metric : String) :
    (exclusions.any fun pattern => pattern.isFoundIn metric) = true
      ↔ ∃ text ∈ settings.excludedMetrics, Fits text metric := by
  rw [List.any_eq_true]
  constructor
  · rintro ⟨pattern, member, found⟩
    have written := List.mem_map_of_mem member (f := some)
    rw [← map_exclusions compiled, List.mem_map] at written
    obtain ⟨text, member, known⟩ := written
    exact ⟨text, member, (fits_iff known metric).mpr found⟩
  · rintro ⟨text, member, fits⟩
    obtain ⟨pattern, held, known⟩ := exists_mem_exclusions compiled member
    exact ⟨pattern, held, (fits_iff known metric).mp fits⟩

end

/-- A text that is accepted, of a tag filter or of excluded metrics, finds the values that it
describes as a whole if it is a pattern on its own; and those that are none close a group that they
do not open. -/
theorem accepted_texts_anchored (patterns : SortedMap String String) (settings : CacheSettings) :
    (∀ filter, TagFilter.compile patterns = .ok filter →
      (∀ tags, filter.accepts tags = true ↔ ∀ key text, patterns.get? key = some text →
        ∃ value, tags.get? key = some value ∧ Fits text value)
      ∧ ∀ key text, patterns.get? key = some text →
        (read? text.toList = none ↔ ClosesUnopened text))
    ∧ ∀ exclusions, settings.exclusions = .ok exclusions →
      (∀ metric, (exclusions.any fun pattern => pattern.isFoundIn metric) = true
        ↔ ∃ text ∈ settings.excludedMetrics, Fits text metric)
      ∧ ∀ text ∈ settings.excludedMetrics, (read? text.toList = none ↔ ClosesUnopened text) := by
  refine ⟨fun filter compiled => ⟨accepts_iff_fits compiled, fun key text asked => ?_⟩,
    fun exclusions compiled => ⟨excludes_iff_fits compiled, fun text member => ?_⟩⟩
  · obtain ⟨pattern, known⟩ := exists_ofWhole?_of_compile compiled asked
    exact read?_eq_none_iff_of_accepted known
  · obtain ⟨pattern, _, known⟩ := exists_mem_exclusions compiled member
    exact read?_eq_none_iff_of_accepted known

/-- Of two texts that are accepted, the first is a pattern on its own.  The second closes a group
that it does not open, so only its first branch stands at the start of a value, and only its second
one at the end. -/
theorem accepted_texts_anchored_of_two :
    ∃ filter exclusions,
      TagFilter.compile (.ofList [("host", "a|b"), ("rack", "a)|(?:b")]) = .ok filter
      ∧ CacheSettings.exclusions { CacheSettings.standard with excludedMetrics := ["a)|(?:b"] }
        = .ok exclusions
      ∧ filter.accepts (.ofList [("host", "b"), ("rack", "axyz")]) = true
      ∧ (exclusions.any fun pattern => pattern.isFoundIn "xb") = true
      ∧ Fits "a|b" "b" ∧ Fits "a)|(?:b" "axyz" ∧ Fits "a)|(?:b" "xb"
      ∧ ClosesUnopened "a)|(?:b" := by
  have known := accepted_texts_anchored (.ofList [("host", "a|b"), ("rack", "a)|(?:b")])
    { CacheSettings.standard with excludedMetrics := ["a)|(?:b"] }
  have closes : read? "a)|(?:b".toList = none := by decide +kernel
  let unopened := choice
    (sequence (assertion .unicode .textStart) (sequence (one (.single 'a')) empty))
    (sequence (one (.single 'b')) (sequence (assertion .unicode .textEnd) empty))
  have compiled : TagFilter.compile (.ofList [("host", "a|b"), ("rack", "a)|(?:b")])
      = .ok ⟨[("host", (choice (one (.single 'a')) (one (.single 'b'))).anchored),
        ("rack", unopened)]⟩ := by decide +kernel
  have excluded : CacheSettings.exclusions
      { CacheSettings.standard with excludedMetrics := ["a)|(?:b"] } = .ok [unopened] := by
    decide +kernel
  obtain ⟨accepts, _⟩ := known.1 _ compiled
  obtain ⟨excludes, unread⟩ := known.2 _ excluded
  have accepted : TagFilter.accepts
      ⟨[("host", (choice (one (.single 'a')) (one (.single 'b'))).anchored), ("rack", unopened)]⟩
      (.ofList [("host", "b"), ("rack", "axyz")]) = true := by decide +kernel
  have found : ([unopened].any fun pattern => pattern.isFoundIn "xb") = true := by decide +kernel
  obtain ⟨_, host, first⟩ := (accepts _).mp accepted "host" "a|b" (by decide +kernel)
  obtain ⟨_, rack, second⟩ := (accepts _).mp accepted "rack" "a)|(?:b" (by decide +kernel)
  obtain ⟨text, member, third⟩ := (excludes "xb").mp found
  obtain rfl := List.mem_singleton.mp member
  cases host.symm.trans (by decide +kernel : _ = some "b")
  cases rack.symm.trans (by decide +kernel : _ = some "axyz")
  exact ⟨_, _, compiled, excluded, accepted, found, first, second, third,
    (unread _ member).mp closes⟩

end TimeSeries.Pattern
