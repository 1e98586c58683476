import TimeSeries.Proofs.Cursor.Calls
import TimeSeries.Proofs.Cursor.LostStream

/-!
# What a seek leaves of the past

A stack is a list of layers over stored entries.  A seek starts every layer anew, from the cursor
below it.  There is one exception: a layer of expanded or filtered entries below which the seek fails
gives up before it has looked for an entry, and still stands on what it stood on.

So of all that calls have made of a stack, a seek leaves the tops of these layers at most
(`Stack.seek_renewed`).  If none of the layers below which it fails stands on an entry, it leaves
nothing: the stack is then the same as a stack that is built anew and has only been sought, and so is
all that comes later.  That is the case wherever the seek fails nowhere.

Main statement: `Stack.seek_forgets`.
-/

set_option autoImplicit false

namespace TimeSeries

open Cursor (Kept)

/-! ## One layer -/

section

variable {σ : Type} [Cursor σ] {range : KeyRange}

namespace Expanded

variable {cursor other : Expanded σ}

theorem seek_eq (same : Cursor.seek range.widened cursor.below = Cursor.seek range.widened other.below)
    (tops : (Cursor.seek range.widened cursor.below).2 ≠ none → cursor.top = other.top) :
    Cursor.seek range cursor = Cursor.seek range other := by
  show Expanded.seek range cursor = Expanded.seek range other
  unfold Expanded.seek
  rw [← same]
  generalize Cursor.seek range.widened cursor.below = moved at tops
  obtain ⟨sought, failure⟩ := moved
  cases failure with
  | none => rfl
  | some cause => rw [tops (Option.some_ne_none cause)]

theorem fine_below (fine : (Cursor.seek range cursor).2 = none) :
    (Cursor.seek range.widened cursor.below).2 = none := by
  have sought : (Expanded.seek range cursor).2 = none := fine
  unfold Expanded.seek at sought
  split at sought
  · cases sought
  case _ moved => rw [moved]

theorem top_of_failing (failing : (Cursor.seek range.widened cursor.below).2 ≠ none) :
    Cursor.top (Cursor.seek range cursor).1 = cursor.top := by
  show (Expanded.seek range cursor).1.top = cursor.top
  unfold Expanded.seek
  split
  · rfl
  case _ moved => rw [moved] at failing; exact absurd rfl failing

end Expanded

namespace Retained

variable {cursor other : Retained σ}

theorem seek_eq (filters : cursor.filter = other.filter)
    (same : Cursor.seek range cursor.below = Cursor.seek range other.below) :
    Cursor.seek range cursor = Cursor.seek range other := by
  show settle cursor.filter _ = settle other.filter _
  rw [filters, same]

theorem fine_below (fine : (Cursor.seek range cursor).2 = none) :
    (Cursor.seek range cursor.below).2 = none :=
  (Option.or_eq_none_iff.mp fine).2

end Retained

namespace Lookahead

theorem seek_eq {cursor other : Lookahead σ}
    (same : Cursor.seek range cursor.below = Cursor.seek range other.below) :
    Cursor.seek range cursor = Cursor.seek range other := by
  show (Lookahead.mk (Cursor.seek range cursor.below).1 none, (Cursor.seek range cursor.below).2)
    = (Lookahead.mk (Cursor.seek range other.below).1 none, (Cursor.seek range other.below).2)
  rw [same]

end Lookahead

namespace Combined

variable {cursor other : Combined σ}

theorem seek_eq (reducers : cursor.reducer = other.reducer) (windows : cursor.window = other.window)
    (same : Cursor.seek range cursor.below.below = Cursor.seek range other.below.below) :
    Cursor.seek range cursor = Cursor.seek range other := by
  show Combined.seek range cursor = Combined.seek range other
  unfold Combined.seek
  rw [Lookahead.seek_eq same, reducers, windows]

theorem fine_below (fine : (Cursor.seek range cursor).2 = none) :
    (Cursor.seek range cursor.below.below).2 = none := by
  have sought : (Combined.seek range cursor).2 = none := fine
  unfold Combined.seek at sought
  split at sought
  · cases sought
  case _ moved => exact congrArg Prod.snd moved

end Combined

namespace Filtered

variable {cursor other : Filtered σ}

/-- Looking for an entry does not depend on what the layer stands on. -/
theorem fill_withTop (cursor : Filtered σ) (top : Option Entry) (failure : Option Failure) :
    fill { cursor with top := top } failure = fill cursor failure := by
  fun_induction fill cursor failure with
  | case1 cursor failure nothing =>
      exact @fill_of_finished _ _ { cursor with top := top } nothing failure
  | case2 cursor failure entry here later cause stepped =>
      exact @fill_of_failing _ _ { cursor with top := top } _ _ _ here stepped failure
  | case3 cursor failure entry here later stepped cause taken ih =>
      refine (@fill_of_entry _ _ { cursor with top := top } _ _ here stepped failure).trans ?_
      rw [show take { cursor with top := top } entry = .error cause from taken]
      exact ih
  | case4 cursor failure entry here later stepped windows taken ih =>
      refine (@fill_of_entry _ _ { cursor with top := top } _ _ here stepped failure).trans ?_
      rw [show take { cursor with top := top } entry = .ok (windows, none) from taken]
      exact ih
  | case5 cursor failure entry here later stepped windows output taken =>
      refine (@fill_of_entry _ _ { cursor with top := top } _ _ here stepped failure).trans ?_
      rw [show take { cursor with top := top } entry = .ok (windows, some output) from taken]

theorem seek_eq (filters : cursor.filter = other.filter) (warmUps : cursor.warmUp = other.warmUp)
    (scopes : cursor.scope = other.scope)
    (same : Cursor.seek range cursor.below = Cursor.seek range other.below)
    (tops : (Cursor.seek range cursor.below).2 ≠ none → cursor.top = other.top) :
    Cursor.seek range cursor = Cursor.seek range other := by
  show Filtered.seek range cursor = Filtered.seek range other
  unfold Filtered.seek
  rw [← same]
  generalize Cursor.seek range cursor.below = moved at tops
  obtain ⟨sought, failure⟩ := moved
  cases failure with
  | none =>
      rw [filters, warmUps, scopes]
      exact (fill_withTop { other with below := sought, windows := .empty } cursor.top none)
  | some cause => rw [tops (Option.some_ne_none cause), filters, warmUps, scopes]

theorem fine_below (fine : (Cursor.seek range cursor).2 = none) :
    (Cursor.seek range cursor.below).2 = none := by
  have sought : (Filtered.seek range cursor).2 = none := fine
  unfold Filtered.seek at sought
  split at sought
  · cases sought
  case _ moved => rw [moved]

theorem top_of_failing (failing : (Cursor.seek range cursor.below).2 ≠ none) :
    Cursor.top (Cursor.seek range cursor).1 = cursor.top := by
  show (Filtered.seek range cursor).1.top = cursor.top
  unfold Filtered.seek
  split
  · rfl
  case _ moved => rw [moved] at failing; exact absurd rfl failing

end Filtered

end

/-! ## Stacks -/

/-- A layer, with what it is built with. -/
inductive Layer where
  | expanded
  | retained (filter : RetentionFilter)
  | lookahead
  | combined (reducer : Reducer) (window : Window)
  | filtered (filter : MovingFilter) (warmUp : WarmUp) (scope : Scope)

/-- Layers over sorted entries, the uppermost first. -/
def Stack : List Layer → Type
  | [] => SortedEntries
  | .expanded :: layers => Expanded (Stack layers)
  | .retained _ :: layers => Retained (Stack layers)
  | .lookahead :: layers => Lookahead (Stack layers)
  | .combined _ _ :: layers => Combined (Stack layers)
  | .filtered _ _ _ :: layers => Filtered (Stack layers)

namespace Stack

instance cursor : (layers : List Layer) → Cursor (Stack layers)
  | [] => inferInstanceAs (Cursor SortedEntries)
  | .expanded :: layers =>
      have := cursor layers
      inferInstanceAs (Cursor (Expanded (Stack layers)))
  | .retained _ :: layers =>
      have := cursor layers
      inferInstanceAs (Cursor (Retained (Stack layers)))
  | .lookahead :: layers =>
      have := cursor layers
      inferInstanceAs (Cursor (Lookahead (Stack layers)))
  | .combined _ _ :: layers =>
      have := cursor layers
      inferInstanceAs (Cursor (Combined (Stack layers)))
  | .filtered _ _ _ :: layers =>
      have := cursor layers
      inferInstanceAs (Cursor (Filtered (Stack layers)))

/-- A new stack; its layers stand on nothing. -/
def build (entries : List Entry) : (layers : List Layer) → Stack layers
  | [] => SortedEntries.ofList entries
  | .expanded :: layers => Expanded.above (build entries layers)
  | .retained filter :: layers => Retained.mk (build entries layers) filter
  | .lookahead :: layers => Lookahead.above (build entries layers)
  | .combined reducer window :: layers => Combined.above reducer window (build entries layers)
  | .filtered filter warmUp scope :: layers =>
      Filtered.above filter warmUp scope (build entries layers)

/-- A call on a stack; one can look ahead where this is what the uppermost layer does. -/
inductive Call : List Layer → Type where
  | move {layers : List Layer} (call : Cursor.Call) : Call layers
  | peek {layers : List Layer} : Call (.lookahead :: layers)

/-- The stack after a call, whatever it met. -/
def Call.run : {layers : List Layer} → Call layers → Stack layers → Stack layers
  | _, .move call, stack => (call.move stack).1
  | _, .peek, stack => (Lookahead.peek stack).1

/-- The stack after some calls. -/
def after {layers : List Layer} (calls : List (Call layers)) (stack : Stack layers) : Stack layers :=
  calls.foldl (fun stack call => call.run stack) stack

/-- The stack has been built of the entries and the layers. -/
def BuiltOf (entries : List Entry) : (layers : List Layer) → Stack layers → Prop
  | [], stack => SortedEntries.entries stack = (SortedEntries.ofList entries).entries
  | .expanded :: layers, stack => BuiltOf entries layers (Expanded.below stack)
  | .retained filter :: layers, stack =>
      Retained.filter stack = filter ∧ BuiltOf entries layers (Retained.below stack)
  | .lookahead :: layers, stack => BuiltOf entries layers (Lookahead.below stack)
  | .combined reducer window :: layers, stack =>
      Combined.reducer stack = reducer ∧ Combined.window stack = window
        ∧ BuiltOf entries layers (Combined.below stack).below
  | .filtered filter warmUp scope :: layers, stack =>
      Filtered.filter stack = filter ∧ Filtered.warmUp stack = warmUp
        ∧ Filtered.scope stack = scope ∧ BuiltOf entries layers (Filtered.below stack)

theorem builtOf_build (entries : List Entry) (layers : List Layer) :
    BuiltOf entries layers (build entries layers) := by
  induction layers with
  | nil => rfl
  | cons layer layers ih =>
      cases layer with
      | expanded => exact ih
      | retained filter => exact ⟨rfl, ih⟩
      | lookahead => exact ih
      | combined reducer window => exact ⟨rfl, rfl, ih⟩
      | filtered filter warmUp scope => exact ⟨rfl, rfl, rfl, ih⟩

/-- No move changes what a stack is built of. -/
theorem kept_builtOf (entries : List Entry) (layers : List Layer) :
    Kept (BuiltOf entries layers) := by
  induction layers with
  | nil => exact SortedEntries.kept _
  | cons layer layers ih =>
      cases layer with
      | expanded => exact Expanded.kept ih
      | retained filter => exact Retained.kept ih filter
      | lookahead => exact Lookahead.kept ih
      | combined reducer window => exact Combined.kept ih reducer window
      | filtered filter warmUp scope => exact Filtered.kept ih filter warmUp scope

theorem builtOf_after {entries : List Entry} {layers : List Layer} {stack : Stack layers}
    (built : BuiltOf entries layers stack) (calls : List (Call layers)) :
    BuiltOf entries layers (after calls stack) := by
  induction calls generalizing stack with
  | nil => exact built
  | cons call calls ih =>
      refine ih ?_
      cases call with
      | move call => exact (kept_builtOf entries layers).move built call
      | peek => exact Lookahead.holds_peek (kept_builtOf entries _) built

/-! ## What is left of the past -/

/-- A stack that is built anew, except that the layers of expanded and of filtered entries stand on
what those of the given stack stand on. -/
def renewed (entries : List Entry) : (layers : List Layer) → Stack layers → Stack layers
  | [], _ => SortedEntries.ofList entries
  | .expanded :: layers, stack =>
      { Expanded.above (renewed entries layers (Expanded.below stack)) with
        top := Expanded.top stack }
  | .retained filter :: layers, stack =>
      Retained.mk (renewed entries layers (Retained.below stack)) filter
  | .lookahead :: layers, stack => Lookahead.above (renewed entries layers (Lookahead.below stack))
  | .combined reducer window :: layers, stack =>
      Combined.above reducer window (renewed entries layers (Combined.below stack).below)
  | .filtered filter warmUp scope :: layers, stack =>
      { Filtered.above filter warmUp scope (renewed entries layers (Filtered.below stack)) with
        top := Filtered.top stack }

/-- The uppermost layer keeps what it stands on when the range is sought. -/
def Keeps (range : KeyRange) : (layers : List Layer) → Stack layers → Prop
  | .expanded :: _, stack => (Cursor.seek range.widened (Expanded.below stack)).2 ≠ none
  | .filtered _ _ _ :: _, stack => (Cursor.seek range (Filtered.below stack)).2 ≠ none
  | _, _ => False

/-- No layer that keeps what it stands on when the range is sought stands on an entry. -/
def Forgets (range : KeyRange) : (layers : List Layer) → Stack layers → Prop
  | [], _ => True
  | .expanded :: layers, stack =>
      ((Cursor.seek range.widened (Expanded.below stack)).2 ≠ none → Expanded.top stack = none)
        ∧ Forgets range.widened layers (Expanded.below stack)
  | .retained _ :: layers, stack => Forgets range layers (Retained.below stack)
  | .lookahead :: layers, stack => Forgets range layers (Lookahead.below stack)
  | .combined _ _ :: layers, stack => Forgets range layers (Combined.below stack).below
  | .filtered _ _ _ :: layers, stack =>
      ((Cursor.seek range (Filtered.below stack)).2 ≠ none → Filtered.top stack = none)
        ∧ Forgets range layers (Filtered.below stack)

section

variable {entries : List Entry} {layers : List Layer} {stack : Stack layers}

/-- At most the tops of layers of expanded and of filtered entries survive a seek. -/
theorem seek_renewed (built : BuiltOf entries layers stack) (range : KeyRange) :
    Cursor.seek range stack = Cursor.seek range (renewed entries layers stack) := by
  induction layers generalizing range with
  | nil =>
      obtain ⟨held, rest, sought⟩ := stack
      cases show held = (SortedEntries.ofList entries).entries from built
      rfl
  | cons layer layers ih =>
      cases layer with
      | expanded => exact Expanded.seek_eq (ih built range.widened) fun _ => rfl
      | retained filter => exact Retained.seek_eq built.1 (ih built.2 range)
      | lookahead => exact Lookahead.seek_eq (ih built range)
      | combined reducer window => exact Combined.seek_eq built.1 built.2.1 (ih built.2.2 range)
      | filtered filter warmUp scope =>
          exact Filtered.seek_eq built.1 built.2.1 built.2.2.1 (ih built.2.2.2 range) fun _ => rfl

/-- Where no layer that keeps what it stands on does stand on an entry, a seek leaves nothing. -/
theorem seek_of_forgets (built : BuiltOf entries layers stack) {range : KeyRange}
    (forgets : Forgets range layers stack) :
    Cursor.seek range stack = Cursor.seek range (build entries layers) := by
  induction layers generalizing range with
  | nil => exact seek_renewed built range
  | cons layer layers ih =>
      cases layer with
      | expanded => exact Expanded.seek_eq (ih built forgets.2) forgets.1
      | retained filter => exact Retained.seek_eq built.1 (ih built.2 forgets)
      | lookahead => exact Lookahead.seek_eq (ih built forgets)
      | combined reducer window =>
          exact Combined.seek_eq built.1 built.2.1 (ih built.2.2 forgets)
      | filtered filter warmUp scope =>
          exact Filtered.seek_eq built.1 built.2.1 built.2.2.1 (ih built.2.2.2 forgets.2) forgets.1

/-- A seek that reports no failure has failed nowhere. -/
theorem forgets_of_fine {range : KeyRange} (fine : (Cursor.seek range stack).2 = none) :
    Forgets range layers stack := by
  induction layers generalizing range with
  | nil => trivial
  | cons layer layers ih =>
      cases layer with
      | expanded =>
          have below := Expanded.fine_below fine
          exact ⟨absurd below, ih below⟩
      | retained filter => exact ih (Retained.fine_below fine)
      | lookahead => exact ih fine
      | combined reducer window => exact ih (Combined.fine_below fine)
      | filtered filter warmUp scope =>
          have below := Filtered.fine_below fine
          exact ⟨absurd below, ih below⟩

/-- A seek leaves nothing if that of a new stack reports no failure. -/
theorem seek_of_fine (built : BuiltOf entries layers stack) {range : KeyRange}
    (fine : (Cursor.seek range (build entries layers)).2 = none) :
    Cursor.seek range stack = Cursor.seek range (build entries layers) := by
  induction layers generalizing range with
  | nil => exact seek_renewed built range
  | cons layer layers ih =>
      cases layer with
      | expanded =>
          have below := Expanded.fine_below fine
          have same := ih built below
          exact Expanded.seek_eq same (absurd ((congrArg Prod.snd same).trans below))
      | retained filter => exact Retained.seek_eq built.1 (ih built.2 (Retained.fine_below fine))
      | lookahead => exact Lookahead.seek_eq (ih built fine)
      | combined reducer window =>
          exact Combined.seek_eq built.1 built.2.1 (ih built.2.2 (Combined.fine_below fine))
      | filtered filter warmUp scope =>
          have below := Filtered.fine_below fine
          have same := ih built.2.2.2 below
          exact Filtered.seek_eq built.1 built.2.1 built.2.2.1 same
            (absurd ((congrArg Prod.snd same).trans below))

/-- A layer that keeps what it stands on shows it after the seek, and a new one shows nothing. -/
theorem top_of_keeps (built : BuiltOf entries layers stack) {range : KeyRange}
    (keeps : Keeps range layers stack) :
    Cursor.top (Cursor.seek range stack).1 = Cursor.top stack
      ∧ Cursor.top (Cursor.seek range (build entries layers)).1 = none := by
  cases layers with
  | nil => cases keeps
  | cons layer layers =>
      cases layer with
      | expanded =>
          refine ⟨Expanded.top_of_failing keeps, Expanded.top_of_failing fun fine => keeps ?_⟩
          exact (congrArg Prod.snd (@seek_of_fine entries layers _ built _ fine)).trans fine
      | retained filter => cases keeps
      | lookahead => cases keeps
      | combined reducer window => cases keeps
      | filtered filter warmUp scope =>
          refine ⟨Filtered.top_of_failing keeps, Filtered.top_of_failing fun fine => keeps ?_⟩
          exact (congrArg Prod.snd (@seek_of_fine entries layers _ built.2.2.2 _ fine)).trans fine

end

/-- **What a seek forgets**, for every stack and whatever calls were made of it.  A seek depends on
the past in the tops of expanding and filtering layers alone.  It leaves the stack as a new one that
is sought, failure and all, if none of the layers below which it fails stands on an entry, and in
particular if it reports no failure, for the used stack or for the new one.  But where it fails below
the uppermost layer, and this expands or filters, the layer shows its old top, and a new one
nothing. -/
theorem seek_forgets (entries : List Entry) (layers : List Layer) (calls : List (Call layers))
    (range : KeyRange) :
    let fresh := build entries layers
    let used := after calls fresh
    Cursor.seek range used = Cursor.seek range (renewed entries layers used)
      ∧ (Forgets range layers used → Cursor.seek range used = Cursor.seek range fresh)
      ∧ ((Cursor.seek range used).2 = none ∨ (Cursor.seek range fresh).2 = none →
        Cursor.seek range used = Cursor.seek range fresh)
      ∧ (Keeps range layers used →
        Cursor.top (Cursor.seek range used).1 = Cursor.top used
          ∧ Cursor.top (Cursor.seek range fresh).1 = none) := by
  intro fresh used
  have built : BuiltOf entries layers used := builtOf_after (builtOf_build entries layers) calls
  refine ⟨seek_renewed built range, seek_of_forgets built, fun fine => ?_, top_of_keeps built⟩
  rcases fine with fine | fine
  · exact seek_of_forgets built (forgets_of_fine fine)
  · exact seek_of_fine built fine

/-- The seek of a metric whose only entry is corrupt shows an entry of the metric sought before. -/
theorem seek_forgets_not_top :
    let strand (metric : String) : Strand := ⟨metric, "h=a", "", ""⟩
    let entries : List Entry :=
      [(strand "a").entryAt ⟨1, ⟨1⟩⟩, ⟨(strand "b").key 1, List.replicate 20 0⟩]
    let layers : List Layer := [.filtered (.rate .standard) .early .stream, .expanded]
    let fresh := build entries layers
    let used := after [.move (.seek (.ofMetric "a"))] fresh
    (Cursor.top (Cursor.seek (.ofMetric "b") used).1).map Entry.key = some ((strand "a").key 1)
      ∧ Cursor.top (Cursor.seek (.ofMetric "b") fresh).1 = none := by
  intro strand entries layers fresh used
  have sound : ∀ entry ∈ entries, entry.isCorrupt = true ∨ entry.Valid := by
    simp only [entries, List.forall_mem_cons]
    exact ⟨Or.inr ((strand "a").valid_entryAt _), Or.inl (by decide +kernel), by simp⟩
  have sorted : (SortedEntries.ofList entries).entries = entries :=
    SortedEntries.entries_ofList (by decide +kernel)
  have built : BuiltOf entries [.expanded] (Filtered.below used) :=
    (builtOf_after (builtOf_build entries layers) _).2.2.2
  have keeps : Keeps (.ofMetric "b") layers used := by
    intro fine
    have same := seek_of_forgets built (forgets_of_fine fine)
    exact (Expanded.course_strips sound (.ofMetric "b")).2.mp
      ((congrArg Prod.snd same).symm.trans fine) ⟨[], [], by
        rw [Expanded.visited, sorted]
        decide +kernel⟩
  obtain ⟨_, _, _, kept⟩ := seek_forgets entries layers [.move (.seek (.ofMetric "a"))] (.ofMetric "b")
  obtain ⟨shown, nothing⟩ := kept keeps
  have scanned : Cursor.scan (.ofMetric "a") fresh = _ :=
    Filtered.scan_of_sound (.rate .standard) .early .stream sound (.ofMetric "a")
  refine ⟨?_, nothing⟩
  calc (Cursor.top (Cursor.seek (.ofMetric "b") used).1).map Entry.key
      = (Cursor.top used).map Entry.key := congrArg (Option.map Entry.key) shown
    _ = (Cursor.scan (.ofMetric "a") fresh).head?.map Entry.key := by
        rw [Cursor.scan, Course.entries, List.head?_map]
        exact congrArg (Option.map Entry.key) (Cursor.head?_readings used).symm
    _ = some ((strand "a").key 1) := by
        rw [scanned, Expanded.visited, sorted]
        decide +kernel

end Stack

end TimeSeries
