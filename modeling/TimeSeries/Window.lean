import TimeSeries.Failure

/-!
# Windows of time

Entries are combined window by window.  Windows have one width and start at its multiples, or there
is a single window without limits.
-/

set_option autoImplicit false

namespace TimeSeries

/-- How time is cut into windows. -/
inductive Window where
  /-- Windows of one width. -/
  | aligned (width : Timestamp) (width_pos : 0 < width)
  /-- One window for all time. -/
  | whole
  deriving Repr

namespace Window

/-- Two grids of windows are the same if their widths are. -/
instance : DecidableEq Window
  | aligned first _, aligned second _ =>
      if same : first = second then isTrue (by subst same; rfl)
      else isFalse fun equal => same (by cases equal; rfl)
  | whole, whole => isTrue rfl
  | aligned _ _, whole => isFalse fun equal => by cases equal
  | whole, aligned _ _ => isFalse fun equal => by cases equal

/-- Windows of the given width, which must be positive. -/
def ofWidth (width : Timestamp) : Except Failure Window :=
  if positive : 0 < width then
    .ok (.aligned width positive)
  else
    .error (.configuration (.windowNotPositive width))

/-- The width of the windows; that of the single window is the greatest there is. -/
def width : Window → Timestamp
  | aligned width _ => width
  | whole => Timestamp.latest

/-- The start of the window that holds a timestamp. -/
def start (window : Window) (timestamp : Timestamp) : Timestamp :=
  match window with
  | aligned width _ => timestamp.floorTo width
  | whole => Timestamp.earliest

end Window

end TimeSeries
