import CounterLang.Node

/-!
# Frame — a loop with a hole in its body

A frame is what surrounds a point inside the body of a loop: the siblings before the loop, the loop's line
and condition, and the siblings after it.  A stack of frames, innermost first, leads from any point of a
forest back to the top.

- `Frame`       : one surrounding loop
- `Frame.fill`  : the loop with its body filled in
- `plug`        : the whole forest around a point
-/

namespace CounterLang

structure Frame where
  /-- The siblings in front of the loop, nearest first. -/
  before : List Node
  line : Nat
  condition : Condition
  /-- The siblings behind the loop, in order. -/
  after : List Node

namespace Frame

/-- The loop itself, once its body is known. -/
def fill (frame : Frame) (body : List Node) : Node :=
  .loop frame.line frame.condition body

end Frame

/-- The whole forest around a list of nodes, given the frames that surround it from the inside out. -/
def plug (body : List Node) : List Frame → List Node
  | [] => body
  | frame :: frames => plug (frame.before.reverse ++ frame.fill body :: frame.after) frames

end CounterLang
