import ActionString.Expected
import ActionString.Text.Offset

/-!
# Traces

Reading leaves a trace of everything that was looked for and not found, and of where look-aheads
begin and end. The failure of a text is read off its trace: the furthest place where something was
missed, and all that was missed there. What a look-ahead misses does not count.
-/

namespace ActionString.Grammar

/-- One step of a trace. -/
inductive Event where
  /-- Something was not found at the front of a text. -/
  | missed (text : List Char) (expected : Expected)
  /-- A look-ahead begins. -/
  | enter
  /-- A look-ahead ends. -/
  | leave
  deriving DecidableEq, Repr

/-- The furthest place of a text where something was missed, and what was missed there. -/
structure Failure where
  offset : Nat
  expected : List Expected
  deriving DecidableEq, Repr

/-- The failure before anything is missed. -/
def Failure.start : Failure := ⟨0, []⟩

/-- Takes one more miss into account: a further one starts the list anew, one at the same place
joins it, and one further back is forgotten. -/
def Failure.record (failure : Failure) (offset : Nat) (expected : Expected) : Failure :=
  if failure.offset < offset then ⟨offset, [expected]⟩
  else if failure.offset = offset then
    { failure with expected := failure.expected ++ [expected] }
  else failure

/-- A failure together with the number of look-aheads that are under way. -/
structure Tracker where
  failure : Failure
  depth : Nat
  deriving DecidableEq, Repr

/-- The number of look-aheads under way after a step. -/
def Event.depthAfter (depth : Nat) : Event → Nat
  | missed _ _ => depth
  | enter => depth + 1
  | leave => depth - 1

/-- Follows one step of a trace over a text of the given size. -/
def Tracker.follow (size : Nat) (tracker : Tracker) (event : Event) : Tracker where
  failure := match event with
    | .missed text expected =>
      if tracker.depth = 0 then
        tracker.failure.record (size - Text.byteSize text) expected
      else tracker.failure
    | _ => tracker.failure
  depth := event.depthAfter tracker.depth

/-- The failure that the trace of a text of the given size amounts to. -/
def Failure.ofTrace (size : Nat) (trace : List Event) : Failure :=
  (trace.foldl (Tracker.follow size) ⟨Failure.start, 0⟩).failure

/-- The misses of a trace outside look-aheads, in their order, given the number of look-aheads
that are under way at its start. -/
def outside : Nat → List Event → List (List Char × Expected)
  | _, [] => []
  | depth, .missed text expected :: rest =>
    if depth = 0 then (text, expected) :: outside depth rest else outside depth rest
  | depth, .enter :: rest => outside (depth + 1) rest
  | depth, .leave :: rest => outside (depth - 1) rest

/-- The number of look-aheads under way after a trace. -/
def depthAfter (depth : Nat) (trace : List Event) : Nat :=
  trace.foldl Event.depthAfter depth

/-- Traces add up. -/
@[simp] theorem depthAfter_append (depth : Nat) (first second : List Event) :
    depthAfter depth (first ++ second) = depthAfter (depthAfter depth first) second := by
  simp only [depthAfter, List.foldl_append]

/-- What is missed over two traces is what is missed over the one and then over the other. -/
theorem outside_append (depth : Nat) (first second : List Event) :
    outside depth (first ++ second) =
      outside depth first ++ outside (depthAfter depth first) second := by
  induction first generalizing depth with
  | nil => rfl
  | cons event rest ih =>
    cases event with
    | missed text expected =>
      by_cases top : depth = 0
      · simp [outside, top, ih, depthAfter, Event.depthAfter]
      · simp [outside, top, ih, depthAfter, Event.depthAfter]
    | enter => simp [outside, ih, depthAfter, Event.depthAfter]
    | leave => simp [outside, ih, depthAfter, Event.depthAfter]

end ActionString.Grammar
