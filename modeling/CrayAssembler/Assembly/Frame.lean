import CrayAssembler.Source.Line

namespace CrayAssembler

inductive FrameKind where
  /-- Lines of a macro expansion. -/
  | call
  /-- Lines of a duplicated group. -/
  | group
deriving DecidableEq, Repr

structure Frame where
  kind : FrameKind
  /-- The line of the source that the lines come from. -/
  origin : LineNumber
  lines : List String
deriving DecidableEq, Repr

/-- How deep frames may nest. -/
def frameDepth : Nat := 64

/-- What a statement does to the frames. -/
inductive FrameChange where
  | keep
  /-- A new frame is run before anything else. -/
  | push (frame : Frame)
  /-- Whatever is left of all frames is dropped. -/
  | clear
deriving DecidableEq, Repr

namespace Frame

variable {m : Type → Type} [Monad m]

/-- Assemble lines one by one and run the frame of each before the next. The result says whether
all frames were dropped. -/
def runLines (assemble : String → m FrameChange) (enter : Frame → m Bool) :
    List String → m Bool
  | [] => return false
  | line :: rest => do
    match ← assemble line with
    | .keep => runLines assemble enter rest
    | .clear => return true
    | .push frame =>
      if ← enter frame then return true
      runLines assemble enter rest

/-- Run a frame inside which frames may nest `room` deep. A line is assembled with the room that is
left for its own frame. -/
def run (assemble : Nat → Frame → String → m FrameChange) : Nat → Frame → m Bool
  | 0, frame => runLines (assemble 0 frame) (fun _ => return false) frame.lines
  | room + 1, frame => runLines (assemble (room + 1) frame) (run assemble room) frame.lines

/-- Run the frame that a line of the source gave, if it gave one. -/
def runAfter (assemble : Nat → Frame → String → m FrameChange) (change : FrameChange) : m Unit := do
  match change with
  | .push frame => discard (run assemble (frameDepth - 1) frame)
  | .keep | .clear => return ()

end Frame

end CrayAssembler
