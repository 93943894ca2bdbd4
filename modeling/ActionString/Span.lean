/-!
# Spans

A span is a range of bytes of a text.
-/

namespace ActionString

/-- The bytes from `start` to just before `stop`. -/
structure Span where
  start : Nat
  stop : Nat
  start_le_stop : start ≤ stop
  deriving DecidableEq, Repr

namespace Span

/-- The bytes from `start` to just before `stop`, or none at `start` when `stop` comes before
it. -/
def between (start stop : Nat) : Span := ⟨start, max start stop, Nat.le_max_left start stop⟩

/-- No bytes, at an offset. -/
def point (offset : Nat) : Span := between offset offset

/-- The number of bytes. -/
def length (span : Span) : Nat := span.stop - span.start

/-- Whether there are no bytes. -/
def isEmpty (span : Span) : Bool := span.start = span.stop

end Span

end ActionString
