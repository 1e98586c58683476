import TimeSeries.Proofs.Maps.Lists
import TimeSeries.Proofs.Text.Numerals
import TimeSeries.Retention

/-!
# Retention in options

Options are a map, and reading them goes through the map in some order.  Each option with the common
beginning says one thing, a time for the name behind the beginning, and no two options say something
about the same name; the name `default` is no metric.  What has been said of each name is a function
of the names (`Draft.said`), reading an option changes it at one name or nowhere
(`takeOption_eq_ok_iff`), and so the order does not matter.

Options are complete if the default is among them and all of those with the common beginning are
times (`Complete`).

Main statement: `ofListed_in_any_order`.
-/

set_option autoImplicit false

namespace TimeSeries.Retention

/-! ## One option -/

/-- A text is a time: an integer that is not negative and in range, with any blanks around it. -/
def IsTime (value : String) (time : Timestamp) : Prop :=
  Text.WritesInt (Text.trim value).toList time.toInt ∧ 0 ≤ time

theorem IsTime.unique {value : String} {time other : Timestamp} (first : IsTime value time)
    (second : IsTime value other) : time = other := by
  have read := Text.readTimestamp?_eq_some_iff.mpr first.1
  rw [Text.readTimestamp?_eq_some_iff.mpr second.1] at read
  exact (Option.some.inj read).symm

/-- The names of options are what stands behind the common beginning. -/
theorem strip?_eq_some_iff {start option name : String} :
    strip? start option = some name ↔ option = start ++ name := by
  rw [strip?, ← String.toList_inj, String.toList_append]
  constructor
  · intro stripped
    split at stripped
    case isTrue begins =>
      obtain ⟨rest, whole⟩ := List.isPrefixOf_iff_prefix.mp begins
      cases Option.some.inj stripped
      rw [String.toList_ofList, ← whole, ← String.length_toList, List.drop_left]
    case isFalse => cases stripped
  · intro whole
    have begins : start.toList.isPrefixOf option.toList = true :=
      List.isPrefixOf_iff_prefix.mpr ⟨name.toList, whole.symm⟩
    rw [if_pos begins, whole, ← String.length_toList, List.drop_left, String.ofList_toList]

theorem optionTime_eq_ok_iff {option value : String} {time : Timestamp} :
    optionTime option value = .ok time ↔ IsTime value time := by
  rw [optionTime, IsTime, ← Text.readTimestamp?_eq_some_iff]
  cases Text.readTimestamp? (Text.trim value) with
  | none => simp
  | some read =>
      simp only [Option.some.injEq]
      split
      case isTrue negative =>
        constructor
        · intro impossible
          cases impossible
        · rintro ⟨rfl, nonnegative⟩
          exact absurd negative (Int64.not_lt.mpr nonnegative)
      case isFalse nonnegative =>
        constructor
        · intro same
          cases same
          exact ⟨rfl, Int64.not_lt.mp nonnegative⟩
        · rintro ⟨rfl, _⟩
          rfl

theorem optionTime_failure {option value : String} {failure : Failure}
    (failed : optionTime option value = .error failure) :
    ∃ cause, failure = .configuration cause := by
  rw [optionTime] at failed
  split at failed
  · exact ⟨_, (Except.error.inj failed).symm⟩
  · split at failed
    · exact ⟨_, (Except.error.inj failed).symm⟩
    · cases failed

namespace Draft

/-- What has been said of a name. -/
def said (draft : Draft) (name : String) : Option Timestamp :=
  if name = "default" then draft.standard else draft.overrides.get? name

/-- The time of a name is said. -/
def say (draft : Draft) (name : String) (time : Timestamp) : Draft :=
  if name = "default" then { draft with standard := some time }
  else { draft with overrides := draft.overrides.insert name time }

/-- There is no time of a metric of the name of the default. -/
def Reserves (draft : Draft) : Prop := draft.overrides.get? "default" = none

/-- At first nothing has been said. -/
theorem said_nothing (name : String) : (⟨none, .empty⟩ : Draft).said name = none := by
  unfold said
  split <;> rfl

theorem said_say (draft : Draft) (name other : String) (time : Timestamp) :
    (draft.say name time).said other = if other = name then some time else draft.said other := by
  unfold say said
  by_cases default : name = "default"
  · subst default
    by_cases same : other = "default" <;> simp [same]
  · by_cases same : other = name
    · subst same
      simp [default, SortedMap.get?_insert]
    · by_cases reserved : other = "default" <;>
        simp [default, Ne.symm default, same, reserved, SortedMap.get?_insert]

theorem Reserves.say {draft : Draft} (reserves : draft.Reserves) (name : String)
    (time : Timestamp) : (draft.say name time).Reserves := by
  unfold Draft.say Reserves
  split
  case isTrue => exact reserves
  case isFalse other =>
    rw [SortedMap.get?_insert, if_neg (Ne.symm other)]
    exact reserves

/-- Drafts that say the same are the same. -/
theorem ext_said {first second : Draft} (reserves : first.Reserves) (too : second.Reserves)
    (same : ∀ name, first.said name = second.said name) : first = second := by
  obtain ⟨standard, overrides⟩ := first
  obtain ⟨standard', overrides'⟩ := second
  have standards : standard = standard' := same "default"
  have all : overrides = overrides' := by
    refine SortedMap.ext_get? fun name => ?_
    by_cases default : name = "default"
    · subst default
      exact reserves.trans too.symm
    · have here := same name
      rwa [said, said, if_neg default, if_neg default] at here
  rw [standards, all]

end Draft

theorem takeOption_of_named {start name value : String} (draft : Draft) :
    takeOption start draft (start ++ name) value
      = (optionTime (start ++ name) value).map (draft.say name) := by
  rw [takeOption, strip?_eq_some_iff.mpr rfl]
  show (optionTime (start ++ name) value >>= fun time => _) = _
  cases optionTime (start ++ name) value with
  | error failure => rfl
  | ok time =>
      show (if name = "default" then _ else _) = Except.ok (draft.say name time)
      rw [Draft.say]
      split <;> rfl

theorem takeOption_of_other {start option value : String} (other : ∀ name, option ≠ start ++ name)
    (draft : Draft) : takeOption start draft option value = .ok draft := by
  have unread : strip? start option = none := by
    rw [Option.eq_none_iff_forall_ne_some]
    exact fun name stripped => other name (strip?_eq_some_iff.mp stripped)
  rw [takeOption, unread]

/-- What one option does: with the common beginning it must be a time, which is said of its name;
nothing else is said. -/
theorem exists_takeOption {start option value : String} (draft : Draft)
    (times : ∀ name, option = start ++ name → ∃ time, IsTime value time) :
    ∃ later, takeOption start draft option value = .ok later
      ∧ (draft.Reserves → later.Reserves)
      ∧ (∀ name time, option = start ++ name → IsTime value time → later.said name = some time)
      ∧ ∀ name, option ≠ start ++ name → later.said name = draft.said name := by
  by_cases named : ∃ name, option = start ++ name
  · obtain ⟨name, rfl⟩ := named
    obtain ⟨time, isTime⟩ := times name rfl
    refine ⟨draft.say name time, ?_, fun reserves => reserves.say name time, ?_, ?_⟩
    · rw [takeOption_of_named, optionTime_eq_ok_iff.mpr isTime]
      rfl
    · intro other time' whole isTime'
      have same : other = name := by
        rw [← String.toList_inj] at whole ⊢
        simpa using whole.symm
      rw [Draft.said_say, if_pos same, isTime.unique isTime']
    · intro other apart
      rw [Draft.said_say, if_neg fun same => apart (by rw [same])]
  · have other : ∀ name, option ≠ start ++ name := fun name same => named ⟨name, same⟩
    exact ⟨draft, takeOption_of_other other draft, id,
      fun name _ same => absurd same (other name), fun _ _ => rfl⟩

/-- An option with the common beginning that is no time is refused. -/
theorem takeOption_of_no_time {start name value : String} (draft : Draft)
    (noTime : ¬∃ time, IsTime value time) :
    ∃ cause, takeOption start draft (start ++ name) value = .error (.configuration cause) := by
  rw [takeOption_of_named]
  cases read : optionTime (start ++ name) value with
  | ok time => exact absurd ⟨time, optionTime_eq_ok_iff.mp read⟩ noTime
  | error failure =>
      obtain ⟨cause, rfl⟩ := optionTime_failure read
      exact ⟨cause, rfl⟩

/-! ## Options in a row -/

/-- What is said by options in a row. -/
def draftOf (start : String) (draft : Draft) (listed : List (String × String)) :
    Except Failure Draft :=
  listed.foldlM (fun draft option => takeOption start draft option.1 option.2) draft

theorem draftOf_cons (start : String) (draft : Draft) (option value : String)
    (listed : List (String × String)) :
    draftOf start draft ((option, value) :: listed)
      = takeOption start draft option value >>= (draftOf start · listed) := by
  rw [draftOf, List.foldlM_cons]
  rfl

/-- Every option with the common beginning is a time. -/
def AllTimes (start : String) (listed : List (String × String)) : Prop :=
  ∀ name value, (start ++ name, value) ∈ listed → ∃ time, IsTime value time

/-- Options with different names are read to the end if all of them are times.  Then what has been
said of a name is what its option says, if there is one, and nothing new otherwise. -/
theorem exists_draftOf {start : String} {listed : List (String × String)}
    (distinct : (listed.map Prod.fst).Nodup) (times : AllTimes start listed) (draft : Draft) :
    ∃ later, draftOf start draft listed = .ok later
      ∧ (draft.Reserves → later.Reserves)
      ∧ (∀ name value time, (start ++ name, value) ∈ listed → IsTime value time →
        later.said name = some time)
      ∧ ∀ name, (∀ value, (start ++ name, value) ∉ listed) → later.said name = draft.said name := by
  induction listed generalizing draft with
  | nil =>
      exact ⟨draft, rfl, id, fun _ _ _ member => absurd member List.not_mem_nil, fun _ _ => rfl⟩
  | cons option listed ih =>
      obtain ⟨option, value⟩ := option
      rw [List.map_cons, List.nodup_cons] at distinct
      have isTimeHere (name : String) (same : option = start ++ name) :
          ∃ time, IsTime value time :=
        times name value (by rw [← same]; exact List.mem_cons_self)
      obtain ⟨middle, taken, reserved, saidHere, keptHere⟩ := exists_takeOption draft isTimeHere
      obtain ⟨later, read, reservedLater, saidLater, keptLater⟩ := ih distinct.2
        (fun name value member => times name value (List.mem_cons_of_mem _ member)) middle
      refine ⟨later, by rw [draftOf_cons, taken]; exact read, reservedLater ∘ reserved, ?_, ?_⟩
      · intro name value' time member isTime
        rcases List.mem_cons.mp member with here | there
        · cases here
          -- No later option has the same name, so what is said here stays.
          have once : ∀ value, (start ++ name, value) ∉ listed := fun other again =>
            distinct.1 (List.mem_map.mpr ⟨_, again, rfl⟩)
          rw [keptLater name once]
          exact saidHere name time rfl isTime
        · exact saidLater name value' time there isTime
      · intro name absent
        rw [keptLater name fun value member => absent value (List.mem_cons_of_mem _ member)]
        exact keptHere name fun same => absent value (by rw [← same]; exact List.mem_cons_self)

/-- Options of which one should be a time and is none are refused. -/
theorem draftOf_of_no_time {start : String} {listed : List (String × String)}
    (some_bad : ¬AllTimes start listed) (draft : Draft) :
    ∃ cause, draftOf start draft listed = .error (.configuration cause) := by
  induction listed generalizing draft with
  | nil => exact absurd (fun _ _ member => absurd member List.not_mem_nil) some_bad
  | cons option listed ih =>
      obtain ⟨option, value⟩ := option
      rw [draftOf_cons]
      by_cases times : ∀ name, option = start ++ name → ∃ time, IsTime value time
      · obtain ⟨middle, taken, _⟩ := exists_takeOption draft times
        have later : ¬AllTimes start listed := by
          intro others
          refine some_bad fun name other member => ?_
          rcases List.mem_cons.mp member with here | there
          · cases here
            exact times name rfl
          · exact others name other there
        rw [taken]
        exact ih later middle
      · push Not at times
        obtain ⟨name, rfl, noTime⟩ := times
        obtain ⟨cause, refused⟩ := takeOption_of_no_time draft (not_exists.mpr noTime)
        exact ⟨cause, by rw [refused]; rfl⟩

/-! ## Options in any order -/

/-- The default is among the options, and all options with the common beginning are times. -/
def Complete (start : String) (options : SortedMap String String) : Prop :=
  (∃ value, options.get? (start ++ "default") = some value)
    ∧ ∀ name value, options.get? (start ++ name) = some value → ∃ time, IsTime value time

/-- The retention is what the options say: it is valid, a metric with an option of its own, which
`default` cannot have, is kept for the time there, and all others for the time of the default. -/
structure SetBy (start : String) (options : SortedMap String String) (retention : Retention) :
    Prop where
  valid : retention.validate = .ok ()
  own : ∀ metric value, metric ≠ "default" → options.get? (start ++ metric) = some value →
    IsTime value (retention.forMetric metric)
  otherwise : ∀ metric value, metric = "default" ∨ options.get? (start ++ metric) = none →
    options.get? (start ++ "default") = some value → IsTime value (retention.forMetric metric)

/-- What has been said of each name is the time that its option gives. -/
structure Draft.Tells (draft : Draft) (start : String) (options : SortedMap String String) :
    Prop where
  reserves : draft.Reserves
  said_iff : ∀ name time, draft.said name = some time
    ↔ ∃ value, options.get? (start ++ name) = some value ∧ IsTime value time

section

variable {start : String} {options : SortedMap String String} {listed : List (String × String)}
  {draft : Draft}

theorem mem_iff_of_perm (order : listed.Perm options.toList) (name value : String) :
    (name, value) ∈ listed ↔ options.get? name = some value := by
  rw [order.mem_iff, SortedMap.mem_toList_iff]

theorem distinct_of_perm (order : listed.Perm options.toList) :
    (listed.map Prod.fst).Nodup :=
  (order.map Prod.fst).nodup_iff.mpr options.nodup_keys

/-- In whatever order times are read, what has been said in the end is what they say. -/
theorem exists_tells (order : listed.Perm options.toList)
    (times : ∀ name value, options.get? (start ++ name) = some value → ∃ time, IsTime value time) :
    ∃ draft, draftOf start ⟨none, .empty⟩ listed = .ok draft ∧ draft.Tells start options := by
  obtain ⟨draft, read, reserves, said, kept⟩ := exists_draftOf (distinct_of_perm order)
    (fun name value member => times name value ((mem_iff_of_perm order _ _).mp member))
    ⟨none, .empty⟩
  refine ⟨draft, read, reserves rfl, fun name time => ⟨fun known => ?_, ?_⟩⟩
  · cases given : options.get? (start ++ name) with
    | none =>
        have absent : ∀ value, (start ++ name, value) ∉ listed := fun value member => by
          rw [mem_iff_of_perm order, given] at member
          cases member
        rw [kept name absent, Draft.said_nothing] at known
        cases known
    | some value =>
        obtain ⟨own, isTime⟩ := times name value given
        have same := said name value own ((mem_iff_of_perm order _ _).mpr given) isTime
        rw [known] at same
        exact ⟨value, rfl, Option.some.inj same ▸ isTime⟩
  · rintro ⟨value, given, isTime⟩
    exact said name value time ((mem_iff_of_perm order _ _).mpr given) isTime

/-- Options that agree behind the common beginning say the same. -/
theorem Draft.Tells.unique {other : Draft} {others : SortedMap String String}
    (tells : draft.Tells start options) (too : other.Tells start others)
    (agree : ∀ name, others.get? (start ++ name) = options.get? (start ++ name)) :
    other = draft := by
  refine Draft.ext_said too.reserves tells.reserves fun name => Option.ext fun time => ?_
  rw [too.said_iff, tells.said_iff, agree]

/-- A retention made of what complete options say is the one that they set. -/
theorem Draft.Tells.setBy {standard : Timestamp} (tells : draft.Tells start options)
    (complete : Complete start options) (default : draft.standard = some standard) :
    SetBy start options ⟨standard, draft.overrides⟩ := by
  obtain ⟨value, given, isTime⟩ := (tells.said_iff "default" standard).mp default
  have saidOf : ∀ metric, metric ≠ "default" → draft.said metric = draft.overrides.get? metric :=
    fun metric other => if_neg other
  refine ⟨?_, ?_, ?_⟩
  · have noneNegative : draft.overrides.toList.find? (fun override => override.2 < 0) = none := by
      rw [List.find?_eq_none]
      rintro ⟨metric, time⟩ member negative
      have held := (SortedMap.mem_toList_iff _ _ _).mp member
      have other : metric ≠ "default" := by
        rintro rfl
        rw [tells.reserves] at held
        cases held
      obtain ⟨_, _, isTime⟩ := (tells.said_iff metric time).mp ((saidOf metric other).trans held)
      exact absurd (of_decide_eq_true negative) (Int64.not_lt.mpr isTime.2)
    rw [validate, if_neg (Int64.not_lt.mpr isTime.2), noneNegative]
  · intro metric own other written
    obtain ⟨time, isTime⟩ := complete.2 metric own written
    have held : draft.overrides.get? metric = some time := by
      rw [← saidOf metric other]
      exact (tells.said_iff metric time).mpr ⟨own, written, isTime⟩
    rw [forMetric, held]
    exact isTime
  · intro metric value' unset given'
    have absent : draft.overrides.get? metric = none := by
      by_cases reserved : metric = "default"
      · exact reserved ▸ tells.reserves
      · rw [← saidOf metric reserved, Option.eq_none_iff_forall_ne_some]
        intro time said
        obtain ⟨own, written, _⟩ := (tells.said_iff metric time).mp said
        rw [unset.resolve_left reserved] at written
        cases written
    rw [given] at given'
    cases given'
    rw [forMetric, absent]
    exact isTime

theorem ofListed_eq (start : String) (listed : List (String × String)) :
    ofListed start listed = draftOf start ⟨none, .empty⟩ listed >>= fun draft =>
      match draft.standard with
      | some standard => .ok ⟨standard, draft.overrides⟩
      | none => .error (.configuration (.retentionMissing (start ++ "default"))) := rfl

/-- Complete options are read as the retention that they set. -/
theorem ofListed_of_complete (order : listed.Perm options.toList)
    (complete : Complete start options) :
    ∃ (retention : Retention) (draft : Draft), ofListed start listed = .ok retention
      ∧ draft.Tells start options ∧ draft.standard = some retention.standard
      ∧ draft.overrides = retention.overrides := by
  obtain ⟨⟨value, given⟩, times⟩ := complete
  obtain ⟨draft, read, tells⟩ := exists_tells order times
  obtain ⟨standard, isTime⟩ := times "default" value given
  have default : draft.standard = some standard :=
    (tells.said_iff "default" standard).mpr ⟨value, given, isTime⟩
  refine ⟨⟨standard, draft.overrides⟩, draft, ?_, tells, default, rfl⟩
  rw [ofListed_eq, read]
  show (match draft.standard with | some standard => _ | none => _) = _
  rw [default]

/-- Other options cannot be read, and it is the configuration that is at fault. -/
theorem ofListed_of_incomplete (order : listed.Perm options.toList)
    (incomplete : ¬Complete start options) :
    ∃ cause, ofListed start listed = .error (.configuration cause) := by
  rw [ofListed_eq]
  by_cases times : ∀ name value, options.get? (start ++ name) = some value →
      ∃ time, IsTime value time
  · obtain ⟨draft, read, tells⟩ := exists_tells order times
    have missing : draft.standard = none := by
      rw [Option.eq_none_iff_forall_ne_some]
      intro standard default
      obtain ⟨value, given, _⟩ := (tells.said_iff "default" standard).mp default
      exact incomplete ⟨⟨value, given⟩, times⟩
    refine ⟨.retentionMissing (start ++ "default"), ?_⟩
    rw [read]
    show (match draft.standard with | some standard => _ | none => _) = _
    rw [missing]
  · have some_bad : ¬AllTimes start listed := fun all => times fun name value given =>
      all name value ((mem_iff_of_perm order _ _).mpr given)
    obtain ⟨cause, refused⟩ := draftOf_of_no_time some_bad ⟨none, .empty⟩
    exact ⟨cause, by rw [refused]; rfl⟩

theorem Complete.congr {others : SortedMap String String}
    (agree : ∀ name, others.get? (start ++ name) = options.get? (start ++ name)) :
    Complete start others ↔ Complete start options := by
  simp only [Complete, agree]

/-- What is read depends on nothing but the options with the common beginning. -/
theorem toOption_ofListed_congr {others : SortedMap String String}
    {elsewhere : List (String × String)} (order : listed.Perm options.toList)
    (orderElsewhere : elsewhere.Perm others.toList)
    (agree : ∀ name, others.get? (start ++ name) = options.get? (start ++ name)) :
    (ofListed start elsewhere).toOption = (ofListed start listed).toOption := by
  by_cases complete : Complete start options
  · obtain ⟨⟨_, _⟩, draft, read, tells, standard, overrides⟩ :=
      ofListed_of_complete order complete
    obtain ⟨⟨_, _⟩, other, readElsewhere, too, standardElsewhere, overridesElsewhere⟩ :=
      ofListed_of_complete orderElsewhere ((Complete.congr agree).mpr complete)
    have same := tells.unique too agree
    subst same
    rw [standard] at standardElsewhere
    cases standardElsewhere
    cases overrides
    cases overridesElsewhere
    rw [read, readElsewhere]
  · obtain ⟨_, refused⟩ := ofListed_of_incomplete order complete
    obtain ⟨_, refusedElsewhere⟩ :=
      ofListed_of_incomplete orderElsewhere (mt (Complete.congr agree).mp complete)
    rw [refused, refusedElsewhere]
    rfl

/-- **Retention in options.**  In whatever order the options are read, a retention is read exactly
if they are complete, and otherwise the configuration is at fault.  The retention is the one that
the options set, and it is the same for all options that agree behind the common beginning, in
whatever order those are read. -/
theorem ofListed_in_any_order (order : listed.Perm options.toList) :
    ((∃ retention, ofListed start listed = .ok retention) ↔ Complete start options)
      ∧ ((∃ cause, ofListed start listed = .error (.configuration cause))
        ↔ ¬Complete start options)
      ∧ (∀ retention, ofListed start listed = .ok retention → retention.SetBy start options)
      ∧ (ofListed start listed).toOption = (ofOptions start options).toOption
      ∧ ∀ (others : SortedMap String String) (elsewhere : List (String × String)),
        elsewhere.Perm others.toList →
        (∀ name, others.get? (start ++ name) = options.get? (start ++ name)) →
        (ofListed start elsewhere).toOption = (ofListed start listed).toOption := by
  have readable :
      (∃ retention, ofListed start listed = .ok retention) ↔ Complete start options := by
    constructor
    · rintro ⟨retention, read⟩
      by_contra incomplete
      obtain ⟨_, refused⟩ := ofListed_of_incomplete order incomplete
      rw [read] at refused
      cases refused
    · intro complete
      obtain ⟨retention, _, read, _⟩ := ofListed_of_complete order complete
      exact ⟨retention, read⟩
  refine ⟨readable, ⟨?_, ofListed_of_incomplete order⟩, fun retention read => ?_,
    (toOption_ofListed_congr order (List.Perm.refl _) fun _ => rfl).symm,
    fun _ _ orderElsewhere agree => toOption_ofListed_congr order orderElsewhere agree⟩
  · rintro ⟨_, refused⟩ complete
    obtain ⟨_, read⟩ := readable.mpr complete
    rw [read] at refused
    cases refused
  · have complete := readable.mp ⟨retention, read⟩
    obtain ⟨⟨standard, overrides⟩, draft, again, tells, default, same⟩ :=
      ofListed_of_complete order complete
    rw [read] at again
    cases again
    cases same
    exact tells.setBy complete default

/-- Three options, listed from the last to the first, of which one says nothing. -/
theorem ofListed_in_any_order_of_three :
    let options : SortedMap String String :=
      .ofList [("keep.default", "1000"), ("keep.load", " +50 "), ("other", "soon")]
    let listed := options.toList.reverse
    let retention : Retention := ⟨1000, .ofList [("load", 50)]⟩
    listed.Perm options.toList ∧ ofListed "keep." listed = .ok retention
      ∧ retention.SetBy "keep." options := by
  intro options listed retention
  have order : listed.Perm options.toList := List.reverse_perm _
  have read : ofListed "keep." listed = .ok retention := by decide +kernel
  exact ⟨order, read, (ofListed_in_any_order order).2.2.1 retention read⟩

end

end TimeSeries.Retention
