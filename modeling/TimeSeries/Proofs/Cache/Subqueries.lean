import TimeSeries.Proofs.Cache.Grouping
import TimeSeries.Proofs.Rates.Answers

/-!
# Subqueries are independent

A query is answered as its subqueries are that are asked alone: the answer has their groups and their
omissions, one subquery after the other.  It does not matter whether they are asked of the same cache
or in turn, each of the cache that the ones before left, because a query touches series and changes
no log; and the cache left in the end is the same.

A subquery whose patterns or buckets cannot be read adds one omission and no group.  Any other one
adds no omission, and its groups partition the series that contribute to it.

Main statement: `Cache.independent_afterAll`.
-/

set_option autoImplicit false

namespace TimeSeries.Cache

variable {cache other : Cache} {query : Query} {now : Timestamp}

/-! ## Answers and logs -/

section SameLogs

variable (same : cache.SameLogs other)

include same

theorem SameLogs.legible (legible : cache.Legible) : other.Legible := by
  intro series
  rw [same.logOf_eq]
  exact legible series

/-- Caches with the same logs give the same answers. -/
theorem SameLogs.answerSubquery_eq (legible : cache.Legible) (subquery : Subquery) :
    other.answerSubquery query subquery now = cache.answerSubquery query subquery now := by
  have scans : other.scan? query subquery now = cache.scan? query subquery now := by
    rw [scan?, scan?, same.settings]
  rw [answerSubquery, answerSubquery, scans]
  split
  case h_1 scan _ =>
      refine (same.legible legible).answer_scan_eq legible (fun series _ => ?_) query.divisor
      rw [pointsBy, pointsBy, pointsHeld, pointsHeld, same.logOf_eq]
  case h_2 => rfl
  case h_3 => rfl

end SameLogs

/-! ## Subqueries in turn -/

/-- The subqueries are asked one at a time, each of the cache that the ones before left: the cache
that is left in the end, and the answers. -/
def askInTurn (cache : Cache) (query : Query) (now : Timestamp) :
    List Subquery → Cache × List (Except Failure Answer)
  | [] => (cache, [])
  | subquery :: rest =>
      let asked := cache.ask (query.asking subquery) now
      let later := asked.1.askInTurn query now rest
      (later.1, asked.2 :: later.2)

theorem ask_fst (cache : Cache) (spans : query.start ≤ query.stop) :
    (cache.ask query now).1 = query.subqueries.foldl
      (fun cache subquery => cache.touchedBySubquery query subquery now) cache := by
  show cache.touchedBy query now = _
  rw [touchedBy, Query.validate_of_le spans]

/-- A subquery asked alone is answered as in the query. -/
theorem ask_alone (cache : Cache) (spans : query.start ≤ query.stop) (subquery : Subquery) :
    (cache.ask (query.asking subquery) now).2
      = .ok (cache.answerSubquery query subquery now) := by
  rw [ask_asking, Query.validate_of_le spans]
  rfl

/-- Asked in turn, the subqueries have the answers that they have of the first cache. -/
theorem askInTurn_eq (legible : cache.Legible) (spans : query.start ≤ query.stop)
    (subqueries : List Subquery) :
    cache.askInTurn query now subqueries
      = (subqueries.foldl (fun cache subquery => cache.touchedBySubquery query subquery now) cache,
        subqueries.map fun subquery => .ok (cache.answerSubquery query subquery now)) := by
  induction subqueries generalizing cache with
  | nil => rfl
  | cons subquery rest ih =>
      have same := cache.sameLogs_ask (query.asking subquery) now
      have left : (cache.ask (query.asking subquery) now).1
          = cache.touchedBySubquery query subquery now := by
        rw [ask_fst cache (show (query.asking subquery).start ≤ _ from spans)]
        rfl
      have answers : ∀ later, (cache.touchedBySubquery query subquery now).answerSubquery query
          later now = cache.answerSubquery query later now :=
        left ▸ same.answerSubquery_eq legible
      rw [askInTurn, ih (same.legible legible), ask_alone cache spans, left, List.map_cons,
        List.foldl_cons]
      simp only [answers]

/-! ## Independence -/

/-- The patterns or the buckets of the subquery cannot be read, for a cause. -/
def Unreadable (subquery : Subquery) (cause : Failure) : Prop :=
  subquery.tagFilter = .error cause
    ∨ (∃ filter, subquery.tagFilter = .ok filter) ∧ subquery.parsedDownsampling = .error cause

/-- A query is answered as its subqueries are: alone, or in turn.  A subquery that cannot be read is
one omission, and the groups of any other one partition the series that contribute to it. -/
structure Independent (cache : Cache) (query : Query) (now : Timestamp) : Prop where
  alone : ∀ subquery, (cache.ask (query.asking subquery) now).2
    = .ok (cache.answerSubquery query subquery now)
  answered : (cache.ask query now).2
    = .ok (.concat (query.subqueries.map fun subquery => cache.answerSubquery query subquery now))
  inTurn : cache.askInTurn query now query.subqueries = ((cache.ask query now).1,
    query.subqueries.map fun subquery => (cache.ask (query.asking subquery) now).2)
  unreadable : ∀ subquery cause, Unreadable subquery cause →
    cache.answerSubquery query subquery now = ⟨[], [.subquery subquery.metric cause]⟩
  readable : ∀ subquery filter downsampling, subquery.tagFilter = .ok filter →
    subquery.parsedDownsampling = .ok downsampling →
      (cache.answerSubquery query subquery now).omissions = []
        ∧ cache.Partitions query subquery now (cache.answerSubquery query subquery now).groups

/-- A subquery that cannot be read is one omission. -/
theorem answerSubquery_of_unreadable {subquery : Subquery} {cause : Failure}
    (unreadable : Unreadable subquery cause) :
    cache.answerSubquery query subquery now = ⟨[], [.subquery subquery.metric cause]⟩ := by
  have scanned : cache.scan? query subquery now = .error cause := by
    rcases unreadable with failed | ⟨⟨filter, compiled⟩, failed⟩
    · rw [scan?, failed]
      rfl
    · rw [scan?, compiled, failed]
      rfl
  rw [answerSubquery, scanned]

/-- **Subqueries are independent and groups partition the series**, in whatever state a cache is, for
every query whose span does not end before it starts, and at any time. -/
theorem independent_afterAll {settings : CacheSettings}
    (created : Cache.ofSettings settings = .ok cache) (events : List CacheEvent)
    (spans : query.start ≤ query.stop) (now : Timestamp) :
    (cache.afterAll events).Independent query now := by
  have legible := legible_afterAll created events
  exact {
    alone := fun subquery => ask_alone _ spans subquery
    answered := ask_eq _ spans
    inTurn := by
      rw [askInTurn_eq legible spans, ask_fst _ spans]
      simp only [ask_alone _ spans]
    unreadable := fun subquery cause => answerSubquery_of_unreadable
    readable := fun subquery filter downsampling => legible.partitions }

/-- Three series of a metric, one of them without the tag that is asked for, and a subquery with a
pattern that is none in front of one that has groups. -/
theorem independent_afterAll_of_three :
    let load (host : String) : Series := (Series.ofMetric "load").withTag "host" host
    let unreadable := (Subquery.ofMetric "load").withPattern "host" "("
    let readable := (Subquery.ofMetric "load").withPattern "host" "a|b"
    ∃ cache, Cache.ofSettings .standard = .ok cache
      ∧ let state := cache.afterAll [.store (load "a") ⟨1000, ⟨1⟩⟩, .store (load "b") ⟨2000, ⟨2⟩⟩,
          .store (.ofMetric "load") ⟨1000, ⟨3⟩⟩]
        state.Independent ⟨0, 5000, true, [unreadable, readable]⟩ 5000
          ∧ ∃ groups, (state.ask ⟨0, 5000, true, [unreadable, readable]⟩ 5000).2
              = .ok ⟨groups, [.subquery "load" (.query (.tagPattern "host"))]⟩
            ∧ state.Partitions ⟨0, 5000, true, [unreadable, readable]⟩ readable 5000 groups := by
  intro load unreadable readable
  have created : Cache.ofSettings .standard
      = .ok ⟨.standard, [], .empty, .empty, 0, ⟨0, 0, 0, 0, 0, 0⟩⟩ := rfl
  refine ⟨_, created, ?_⟩
  intro state
  have independent : state.Independent ⟨0, 5000, true, [unreadable, readable]⟩ 5000 :=
    independent_afterAll created _ (by decide) 5000
  have failed : Unreadable unreadable (.query (.tagPattern "host")) := .inl (by rfl)
  obtain ⟨filter, compiled⟩ : ∃ filter, readable.tagFilter = .ok filter := ⟨_, rfl⟩
  obtain ⟨nothing, partitions⟩ := independent.readable readable filter none compiled rfl
  refine ⟨independent, _, ?_, partitions⟩
  rw [independent.answered]
  simp only [List.map_cons, List.map_nil, independent.unreadable _ _ failed, Answer.concat,
    List.flatMap_cons, List.flatMap_nil, nothing, List.nil_append, List.append_nil]
  rfl

end TimeSeries.Cache
