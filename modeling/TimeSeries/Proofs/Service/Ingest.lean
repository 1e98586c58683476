import TimeSeries.Proofs.Cache.History
import TimeSeries.Proofs.Text.Lines
import TimeSeries.Service.Routes

/-!
# Text is taken line by line

Each line of a text yields something of its own, whatever stands in the other lines: nothing if it
is blank or a comment, and otherwise a sample or the reason why it holds none
(`PutLine.result?`).  What a text yields is what its lines yield in turn, each with the number of
its line, and it makes no difference that lines are told apart from pieces between line feeds
(`parseNumbered_eq_pieces`).  So a text that is joined from two by a line feed yields what the one
does and then what the other does, further down.

The samples are stored in turn.  A line that fails leaves the cache to the lines behind it as if its
sample had been stored alone, and each failure is reported with the number of its line.

Main statement: `Cache.put_by_lines`.
-/

set_option autoImplicit false

namespace TimeSeries

/-! ## What a line yields -/

/-- What came of a line: nothing if it holds no sample and nothing that should be one. -/
def PutLine.result? (precision : Precision) (line : String) : Option (Except Failure Sample) :=
  if isIdleLine (Text.trim line) then none else some (parse (Text.trim line) precision)

/-- The lines that are neither blank nor comments, from the given number on, and what came of
them. -/
def PutLine.results (precision : Precision) (number : Nat) (lines : List String) :
    List (Nat × Except Failure Sample) :=
  (numberLines number lines).filterMap fun line => (result? precision line.2).map (line.1, ·)

/-- The samples of some lines. -/
def PutLine.samples (precision : Precision) (lines : List String) : List Sample :=
  lines.filterMap fun line => (result? precision line).bind Except.toOption

/-- The same failure so many lines further down. -/
def LineError.below (lines : Nat) (error : LineError) : LineError :=
  { error with line := error.line + lines }

namespace PutLine

variable {precision : Precision}

/-- A text yields what its lines yield. -/
theorem parseNumbered_eq (text : String) (precision : Precision) :
    parseNumbered text precision = results precision 1 (Text.lines text) := by
  rw [parseNumbered, results, List.filter_map, List.map_map, ← List.filterMap_eq_map,
    List.filterMap_filter]
  refine List.filterMap_congr fun line _ => ?_
  rw [Function.comp_apply, result?]
  cases isIdleLine (Text.trim line.2) <;> rfl

theorem results_cons (precision : Precision) (number : Nat) (line : String) (lines : List String) :
    results precision number (line :: lines)
      = ((result? precision line).map (number, ·)).toList
        ++ results precision (number + 1) lines := by
  rw [results, numberLines, List.filterMap_cons]
  cases result? precision line <;> rfl

theorem results_append (number : Nat) (front back : List String) :
    results precision number (front ++ back)
      = results precision number front ++ results precision (number + front.length) back := by
  induction front generalizing number with
  | nil => rfl
  | cons line front ih =>
      rw [List.cons_append, results_cons, results_cons, ih, List.append_assoc, List.length_cons,
        Nat.add_right_comm, Nat.add_assoc]

/-- Lines further down yield the same. -/
theorem results_add (number further : Nat) (lines : List String) :
    results precision (number + further) lines
      = (results precision number lines).map fun result => (result.1 + further, result.2) := by
  induction lines generalizing number with
  | nil => rfl
  | cons line lines ih =>
      rw [results_cons, results_cons, Nat.add_right_comm, ih, List.map_append]
      cases result? precision line <;> rfl

/-- What a line yields depends on nothing but what is left of it when it is trimmed. -/
theorem result?_dropReturn (piece : List Char) :
    result? precision (String.ofList (Text.dropReturn piece))
      = result? precision (String.ofList piece) := by
  rw [result?, result?, Text.trim_ofList, Text.trim_ofList, Text.trimBlanks_dropReturn]

/-- The lines of a text yield what the pieces between its line feeds yield. -/
theorem results_endLines (number : Nat) (pieces : List (List Char)) :
    results precision number ((Text.endLines pieces).map String.ofList)
      = results precision number (pieces.map String.ofList) := by
  induction pieces using Text.endLines.induct generalizing number with
  | case1 => rfl
  | case2 last empty =>
      rw [Text.endLines, if_pos empty, List.isEmpty_iff.mp empty]
      rfl
  | case3 last filled => rw [Text.endLines, if_neg filled]
  | case4 line next rest ih =>
      rw [Text.endLines, List.map_cons, results_cons, ih, result?_dropReturn, List.map_cons,
        ← results_cons]
      rfl

theorem parseNumbered_eq_pieces (text : String) (precision : Precision) :
    parseNumbered text precision
      = results precision 1 ((Text.pieces (· == '\n') text.toList).map String.ofList) := by
  rw [parseNumbered_eq, Text.lines, results_endLines]

/-- A text that is joined from two yields what the one does and, further down, what the other
does. -/
theorem parseNumbered_append (front back : String) (precision : Precision) :
    parseNumbered (front ++ "\n" ++ back) precision
      = parseNumbered front precision
        ++ (parseNumbered back precision).map fun result =>
          (result.1 + (front.toList.count '\n' + 1), result.2) := by
  have chars : (front ++ "\n" ++ back).toList = front.toList ++ '\n' :: back.toList := by simp
  rw [parseNumbered_eq_pieces, parseNumbered_eq_pieces, parseNumbered_eq_pieces, chars,
    Text.pieces_append _ _ _ (by rfl), List.map_append, results_append, List.length_map,
    Text.length_pieces, results_add]
  rfl

/-- The results of some lines, each with its line and the lines before it. -/
theorem mem_results {number line : Nat} {lines : List String} {parsed : Except Failure Sample} :
    (line, parsed) ∈ results precision number lines
      ↔ ∃ before text after, lines = before ++ text :: after ∧ line = number + before.length
        ∧ result? precision text = some parsed := by
  induction lines generalizing number with
  | nil => simp [results, numberLines]
  | cons first lines ih =>
      rw [results_cons, List.mem_append, ih, Option.mem_toList, Option.map_eq_some_iff]
      constructor
      · rintro (⟨_, yields, same⟩ | ⟨before, text, after, rfl, rfl, yields⟩)
        · cases same
          exact ⟨[], first, lines, rfl, rfl, yields⟩
        · exact ⟨first :: before, text, after, rfl, Nat.add_right_comm _ _ _, yields⟩
      · rintro ⟨before, text, after, split, rfl, yields⟩
        rcases List.cons_eq_append_iff.mp split with ⟨rfl, same⟩ | ⟨others, rfl, rfl⟩
        · cases same
          exact Or.inl ⟨parsed, yields, rfl⟩
        · exact Or.inr ⟨others, text, after, rfl, Nat.add_right_comm number others.length 1, yields⟩

/-- The results of some lines are in the order of the lines. -/
theorem ascending_results (precision : Precision) (number : Nat) (lines : List String) :
    (results precision number lines).Pairwise fun first second => first.1 < second.1 := by
  induction lines generalizing number with
  | nil => exact .nil
  | cons line lines ih =>
      rw [results_cons, List.pairwise_append]
      refine ⟨?_, ih (number + 1), fun first here second there => ?_⟩
      · cases result? precision line with
        | none => exact .nil
        | some parsed => exact List.pairwise_singleton _ _
      · obtain ⟨_, _, rfl⟩ := Option.map_eq_some_iff.mp (Option.mem_toList.mp here)
        obtain ⟨before, _, _, _, behind, _⟩ := mem_results.mp there
        rw [behind, Nat.add_right_comm, Nat.lt_succ_iff]
        exact Nat.le_add_right _ _

/-- There is a result for each line that is neither blank nor a comment. -/
theorem length_results (precision : Precision) (number : Nat) (lines : List String) :
    (results precision number lines).length
      = lines.countP fun line => !isIdleLine (Text.trim line) := by
  induction lines generalizing number with
  | nil => rfl
  | cons line lines ih =>
      rw [results_cons, List.length_append, ih, List.countP_cons, Nat.add_comm, result?]
      cases isIdleLine (Text.trim line) <;> rfl

/-! ## Samples and errors -/

theorem parseLines_samples (text : String) (precision : Precision) :
    (parseLines text precision).1 = samples precision (Text.lines text) := by
  have each : ∀ (number : Nat) (lines : List String),
      (results precision number lines).filterMap (fun line => line.2.toOption)
        = samples precision lines := by
    intro number lines
    induction lines generalizing number with
    | nil => rfl
    | cons line lines ih =>
        rw [results_cons, List.filterMap_append, ih, samples, samples, List.filterMap_cons]
        cases result? precision line with
        | none => rfl
        | some parsed => cases parsed <;> rfl
  show (parseNumbered text precision).filterMap _ = _
  rw [parseNumbered_eq, each]

/-- Some line cannot be read, and this is its number and the reason. -/
def Unreadable (precision : Precision) (lines : List String) (error : LineError) : Prop :=
  ∃ before line after failure, lines = before ++ line :: after
    ∧ result? precision line = some (.error failure)
    ∧ error = ⟨before.length + 1, failure.message⟩

theorem mem_parseLines_errors {text : String} {error : LineError} :
    error ∈ (parseLines text precision).2 ↔ Unreadable precision (Text.lines text) error := by
  show error ∈ (parseNumbered text precision).filterMap _ ↔ _
  rw [parseNumbered_eq, List.mem_filterMap]
  constructor
  · rintro ⟨⟨line, parsed⟩, member, same⟩
    obtain ⟨before, text, after, split, rfl, yields⟩ := mem_results.mp member
    cases parsed with
    | ok sample => cases same
    | error failure =>
        cases same
        exact ⟨before, text, after, failure, split, yields, by rw [Nat.add_comm]⟩
  · rintro ⟨before, text, after, failure, split, yields, rfl⟩
    exact ⟨_, mem_results.mpr ⟨before, text, after, split, Nat.add_comm _ _, yields⟩, rfl⟩

/-- The samples and the errors of a text that is joined from two. -/
theorem parseLines_append (front back : String) (precision : Precision) :
    parseLines (front ++ "\n" ++ back) precision
      = ((parseLines front precision).1 ++ (parseLines back precision).1,
        (parseLines front precision).2
          ++ (parseLines back precision).2.map (.below (front.toList.count '\n' + 1))) := by
  rw [parseLines, parseNumbered_append, List.filterMap_append, List.filterMap_append,
    List.filterMap_map, List.filterMap_map]
  refine Prod.ext rfl (congrArg ((parseLines front precision).2 ++ ·) ?_)
  rw [parseLines, List.map_filterMap]
  refine List.filterMap_congr fun line _ => ?_
  rw [Function.comp_apply]
  cases line.2 <;> rfl

end PutLine

/-! ## Storing line by line -/

namespace Cache

/-- The cache after some samples were stored in turn. -/
def storeAll (cache : Cache) (samples : List Sample) : Cache :=
  cache.afterAll (samples.map fun sample => .store sample.series sample.point)

/-- Stores the sample of a line, if it holds one, and says whether it was stored. -/
def storeLine (cache : Cache) : Except Failure Sample → Cache × Except Failure Unit
  | .ok sample => cache.store sample.series sample.point
  | .error failure => (cache, .error failure)

/-- The cache behind a line. -/
def passLine (cache : Cache) (precision : Precision) (line : String) : Cache :=
  match PutLine.result? precision line with
  | none => cache
  | some parsed => (cache.storeLine parsed).1

variable {precision : Precision}

theorem storeLines_cons (cache : Cache) (line : Nat) (parsed : Except Failure Sample)
    (rest : List (Nat × Except Failure Sample)) :
    cache.storeLines ((line, parsed) :: rest)
      = (((cache.storeLine parsed).1.storeLines rest).1,
        (line, (cache.storeLine parsed).2) :: ((cache.storeLine parsed).1.storeLines rest).2) := by
  cases parsed <;> rfl

/-- The first of some lines is stored, and then the others. -/
theorem storeLines_results_cons (cache : Cache) (number : Nat) (line : String)
    (lines : List String) :
    let others := (cache.passLine precision line).storeLines
      (PutLine.results precision (number + 1) lines)
    cache.storeLines (PutLine.results precision number (line :: lines))
      = (others.1, ((PutLine.result? precision line).map fun parsed =>
          (number, (cache.storeLine parsed).2)).toList ++ others.2) := by
  intro others
  rw [PutLine.results_cons]
  cases yields : PutLine.result? precision line with
  | none => simp only [others, passLine, yields]; rfl
  | some parsed =>
      simp only [others, passLine, yields]
      exact storeLines_cons cache number parsed _

/-- The samples of the first of some lines are stored, and then those of the others. -/
theorem storeAll_samples_cons (cache : Cache) (line : String) (lines : List String) :
    cache.storeAll (PutLine.samples precision (line :: lines))
      = (cache.passLine precision line).storeAll (PutLine.samples precision lines) := by
  rw [PutLine.samples, List.filterMap_cons, passLine]
  cases PutLine.result? precision line with
  | none => rfl
  | some parsed => cases parsed <;> rfl

/-- What is stored of some lines are their samples. -/
theorem storeLines_results (cache : Cache) (number : Nat) (lines : List String) :
    (cache.storeLines (PutLine.results precision number lines)).1
      = cache.storeAll (PutLine.samples precision lines) := by
  induction lines generalizing cache number with
  | nil => rfl
  | cons line lines ih => rw [storeLines_results_cons, storeAll_samples_cons, ih]

/-- Each line is told what came of it. -/
theorem lines_storeLines (cache : Cache) (parsed : List (Nat × Except Failure Sample)) :
    (cache.storeLines parsed).2.map Prod.fst = parsed.map Prod.fst := by
  induction parsed generalizing cache with
  | nil => rfl
  | cons first parsed ih => rw [storeLines_cons, List.map_cons, List.map_cons, ih]

/-- What came of a line is what storing it yields behind the samples of the lines before it. -/
theorem mem_storeLines_results {cache : Cache} {number line : Nat} {lines : List String}
    {outcome : Except Failure Unit} :
    (line, outcome) ∈ (cache.storeLines (PutLine.results precision number lines)).2
      ↔ ∃ before text after parsed, lines = before ++ text :: after
        ∧ line = number + before.length ∧ PutLine.result? precision text = some parsed
        ∧ ((cache.storeAll (PutLine.samples precision before)).storeLine parsed).2 = outcome := by
  induction lines generalizing cache number with
  | nil => simp [PutLine.results, numberLines, storeLines]
  | cons first lines ih =>
      rw [storeLines_results_cons, List.mem_append, ih, Option.mem_toList, Option.map_eq_some_iff]
      constructor
      · rintro (⟨parsed, yields, same⟩ | ⟨before, text, after, parsed, rfl, rfl, yields, stored⟩)
        · cases same
          exact ⟨[], first, lines, parsed, rfl, rfl, yields, rfl⟩
        · refine ⟨first :: before, text, after, parsed, rfl, Nat.add_right_comm _ _ _, yields, ?_⟩
          rw [storeAll_samples_cons, stored]
      · rintro ⟨before, text, after, parsed, split, rfl, yields, stored⟩
        rcases List.cons_eq_append_iff.mp split with ⟨rfl, same⟩ | ⟨others, rfl, rfl⟩
        · cases same
          exact Or.inl ⟨parsed, yields, Prod.ext rfl stored⟩
        · rw [storeAll_samples_cons] at stored
          exact Or.inr ⟨others, text, after, parsed, rfl,
            Nat.add_right_comm number others.length 1, yields, stored⟩

/-! ## Taking a text -/

/-- The sample of some line is rejected behind the samples of the lines before it, and this is the
number of the line and the reason. -/
def Rejects (cache : Cache) (precision : Precision) (lines : List String) (error : LineError) :
    Prop :=
  ∃ before line after sample failure, lines = before ++ line :: after
    ∧ PutLine.result? precision line = some (.ok sample)
    ∧ ((cache.storeAll (PutLine.samples precision before)).store sample.series sample.point).2
      = .error failure
    ∧ error = ⟨before.length + 1, failure.message⟩

/-- A text was taken line by line: some of its lines were stored, and the others failed. -/
structure TakesLines (cache : Cache) (precision : Precision) (text : String) (successes : Nat)
    (errors : List LineError) (taken : Cache × Response) : Prop where
  /-- The cache is as if the samples that can be read had been stored alone. -/
  stored : taken.1 = cache.storeAll (parseLines text precision).1
  /-- Each line that is neither blank nor a comment succeeds or fails. -/
  counted : successes + errors.length
    = (Text.lines text).countP fun line => !isIdleLine (Text.trim line)
  ascending : errors.Pairwise fun first second => first.line < second.line
  unreadable : ∀ error, error ∈ (parseLines text precision).2
    ↔ PutLine.Unreadable precision (Text.lines text) error
  failed : ∀ error, error ∈ errors
    ↔ error ∈ (parseLines text precision).2 ∨ cache.Rejects precision (Text.lines text) error
  response : taken.2
    = if errors.isEmpty then ⟨.noContent, .text ""⟩ else lineReport successes errors
  status : taken.2.status = .noContent ↔ errors = []

theorem mem_lineErrors {outcomes : List (Nat × Except Failure Unit)} {error : LineError} :
    error ∈ lineErrors outcomes
      ↔ ∃ failure, (error.line, .error failure) ∈ outcomes ∧ error.message = failure.message := by
  rw [lineErrors, List.mem_filterMap]
  constructor
  · rintro ⟨⟨line, outcome⟩, member, same⟩
    cases outcome with
    | ok => cases same
    | error failure =>
        cases same
        exact ⟨failure, member, rfl⟩
  · obtain ⟨line, message⟩ := error
    rintro ⟨failure, member, rfl⟩
    exact ⟨_, member, rfl⟩

/-- The errors are in the order of the lines. -/
theorem ascending_lineErrors {outcomes : List (Nat × Except Failure Unit)}
    (ascending : (outcomes.map Prod.fst).Pairwise (· < ·)) :
    (lineErrors outcomes).Pairwise fun first second => first.line < second.line := by
  rw [lineErrors, List.pairwise_filterMap]
  refine (List.pairwise_map.mp ascending).imp fun {first second} before error here other there => ?_
  obtain ⟨line, outcome⟩ := first
  obtain ⟨another, result⟩ := second
  cases outcome with
  | ok => cases here
  | error failure =>
      cases result with
      | ok => cases there
      | error =>
          cases here
          cases there
          exact before

/-- What fails of some lines is what cannot be read and what is rejected. -/
theorem mem_lineErrors_storeLines {cache : Cache} {lines : List String} {error : LineError} :
    error ∈ lineErrors (cache.storeLines (PutLine.results precision 1 lines)).2
      ↔ PutLine.Unreadable precision lines error ∨ cache.Rejects precision lines error := by
  rw [mem_lineErrors]
  constructor
  · rintro ⟨failure, member, message⟩
    obtain ⟨before, line, after, parsed, split, number, yields, stored⟩ :=
      mem_storeLines_results.mp member
    have told : error = ⟨before.length + 1, failure.message⟩ := by
      rw [Nat.add_comm, ← number, ← message]
    cases parsed with
    | error cause =>
        cases stored
        exact Or.inl ⟨before, line, after, failure, split, yields, told⟩
    | ok sample => exact Or.inr ⟨before, line, after, sample, failure, split, yields, stored, told⟩
  · rintro (⟨before, line, after, failure, split, yields, rfl⟩
      | ⟨before, line, after, sample, failure, split, yields, stored, rfl⟩)
    · exact ⟨failure, mem_storeLines_results.mpr
        ⟨before, line, after, _, split, Nat.add_comm _ _, yields, rfl⟩, rfl⟩
    · exact ⟨failure, mem_storeLines_results.mpr
        ⟨before, line, after, _, split, Nat.add_comm _ _, yields, stored⟩, rfl⟩

/-- A text is taken line by line. -/
theorem takesLines_putText (cache : Cache) (text : String) (precision : Precision) :
    ∃ successes errors,
      cache.TakesLines precision text successes errors (cache.putText text precision) := by
  set outcomes := (cache.storeLines (parseNumbered text precision)).2 with told
  have fits : (lineErrors outcomes).length ≤ outcomes.length := List.length_filterMap_le _ _
  have lines : outcomes.map Prod.fst = (parseNumbered text precision).map Prod.fst :=
    lines_storeLines cache _
  have length : outcomes.length
      = (Text.lines text).countP fun line => !isIdleLine (Text.trim line) := by
    rw [← PutLine.length_results precision 1, ← PutLine.parseNumbered_eq,
      ← List.length_map (f := Prod.fst), lines, List.length_map]
  have put : cache.putText text precision
      = ((cache.storeLines (parseNumbered text precision)).1,
        if (lineErrors outcomes).isEmpty then ⟨.noContent, .text ""⟩
        else lineReport (outcomes.length - (lineErrors outcomes).length)
          (lineErrors outcomes)) := by
    show (if (lineErrors outcomes).isEmpty = true then (_, _) else (_, _)) = _
    split <;> rfl
  refine ⟨outcomes.length - (lineErrors outcomes).length, lineErrors outcomes, ?_, ?_, ?_,
    fun error => PutLine.mem_parseLines_errors, fun error => ?_, by rw [put], ?_⟩
  · rw [put, PutLine.parseNumbered_eq, storeLines_results, PutLine.parseLines_samples]
  · rw [Nat.sub_add_cancel fits, length]
  · refine ascending_lineErrors ?_
    rw [lines, List.pairwise_map, PutLine.parseNumbered_eq]
    exact PutLine.ascending_results precision 1 _
  · rw [told, PutLine.parseNumbered_eq, mem_lineErrors_storeLines, PutLine.mem_parseLines_errors]
  · rw [put, ← List.isEmpty_iff]
    cases (lineErrors outcomes).isEmpty with
    | true => exact iff_of_true rfl rfl
    | false => exact iff_of_false (fun same => by cases same) Bool.false_ne_true

end Cache

/-! ## Requests -/

/-- The unit that a request to take samples says its timestamps count in. -/
def Request.precision? (request : Request) : Option Precision :=
  match request.fields.filter fun field => field.1 == "precision" with
  | [] => some .milliseconds
  | [(_, name)] => Precision.ofName? name
  | _ => none

namespace Cache

theorem put_of_precision {request : Request} {precision : Precision}
    (named : request.precision? = some precision) (cache : Cache) :
    cache.put request = cache.putText request.body precision := by
  rw [Request.precision?] at named
  rw [put]
  generalize (request.fields.filter fun field => field.1 == "precision") = fields at named ⊢
  rcases fields with _ | ⟨⟨_, name⟩, _ | ⟨_, _⟩⟩
  · cases named
    rfl
  · simp only at named ⊢
    rw [named]
  · cases named

/-- **Text is taken line by line.**  A text that is joined from two holds the samples and the errors
of the one and then those of the other, further down.  A request leaves the cache as if the samples
of its body had been stored alone and in turn, and reports the lines that cannot be read or are
rejected, in their order. -/
theorem put_by_lines (precision : Precision) :
    (∀ front back, parseLines (front ++ "\n" ++ back) precision
      = ((parseLines front precision).1 ++ (parseLines back precision).1,
        (parseLines front precision).2
          ++ (parseLines back precision).2.map (.below (front.toList.count '\n' + 1))))
    ∧ ∀ (cache : Cache) (request : Request), request.precision? = some precision →
      ∃ successes errors,
        cache.TakesLines precision request.body successes errors (cache.put request) := by
  refine ⟨fun front back => PutLine.parseLines_append front back precision,
    fun cache request named => ?_⟩
  rw [put_of_precision named]
  exact takesLines_putText cache request.body precision

/-- Of a text of five lines, two are blank or a comment, one cannot be read, and of the two samples
the second is too early to be stored. -/
theorem put_by_lines_of_five :
    let request : Request := ⟨"POST", "/api/put?precision=s", none,
      "load 5 1.5 host=a\r\n\n # later\r\nload\nput load 3 2.5 host=a"⟩
    ∃ cache, Cache.ofSettings .standard = .ok cache
      ∧ (cache.put request).1.status.counters = ⟨1, 1, 0, 0, 0, 0⟩
      ∧ ∃ successes errors,
        cache.TakesLines .seconds request.body successes errors (cache.put request)
        ∧ successes + errors.length = 3 ∧ ∃ error ∈ errors, error.line = 4 := by
  intro request
  obtain ⟨cache, created⟩ : ∃ cache, Cache.ofSettings .standard = .ok cache := ⟨_, rfl⟩
  have named : request.precision? = some .seconds := by decide +kernel
  have counters : (cache.put request).1.status.counters = ⟨1, 1, 0, 0, 0, 0⟩ := by
    cases created
    decide +kernel
  obtain ⟨successes, errors, takes⟩ := (put_by_lines .seconds).2 cache request named
  refine ⟨cache, created, counters, successes, errors, takes, ?_, ?_⟩
  · rw [takes.counted]
    decide +kernel
  · have lines : (parseLines request.body .seconds).2.map LineError.line = [4] := by decide +kernel
    obtain ⟨error, listed, line⟩ := List.mem_map.mp (lines ▸ List.mem_singleton_self 4)
    exact ⟨error, (takes.failed error).mpr (Or.inl listed), line⟩

end Cache

end TimeSeries
