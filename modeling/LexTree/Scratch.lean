/-!
# Scratch state

What the predicates of a language remember between calls.  Each family of predicates has a slot of its own, with an
optional marked line and a stack of frames.  Reading a mark or a frame that was never written is an error of the
language, not of the text.
-/

namespace LexTree

/-- The three kinds of construct a language delimits. -/
inductive Family where
  | string
  | comment
  | scope
deriving DecidableEq

namespace Family

def all : List Family := [string, comment, scope]

def text : Family → String
  | string => "string"
  | comment => "comment"
  | scope => "scope"

/-- The name of a family in inspection texts. -/
def title : Family → String
  | string => "String"
  | comment => "Comment"
  | scope => "Scope"

end Family

/-- A read of scratch state that was never written. -/
inductive ScratchError where
  | missingLineMark (family : Family)
  | emptyFrameStack (family : Family)
deriving DecidableEq

/-- The text of an error. -/
def ScratchError.message : ScratchError → String
  | missingLineMark family => s!"no line was marked in the {family.text} scratch slot"
  | emptyFrameStack family => s!"the {family.text} scratch frame stack is empty"

/-- A place remembered by a predicate. -/
structure Frame where
  line : UInt32
  indent : UInt32
deriving DecidableEq

/-- What one family remembers; the frame pushed last comes first. -/
structure Slot where
  lineMark : Option UInt32 := none
  frames : List Frame := []
deriving DecidableEq

/-- One slot for each family. -/
structure Scratch where
  string : Slot := {}
  comment : Slot := {}
  scope : Slot := {}
deriving DecidableEq

namespace Scratch

def slot (s : Scratch) : Family → Slot
  | .string => s.string
  | .comment => s.comment
  | .scope => s.scope

def setSlot (s : Scratch) (slot : Slot) : Family → Scratch
  | .string => { s with string := slot }
  | .comment => { s with comment := slot }
  | .scope => { s with scope := slot }

/-- Remember a line, in place of any earlier one. -/
def markLine (s : Scratch) (f : Family) (line : UInt32) : Scratch :=
  s.setSlot { s.slot f with lineMark := some line } f

/-- The line marked last. -/
def markedLine (s : Scratch) (f : Family) : Except ScratchError UInt32 :=
  match (s.slot f).lineMark with
  | some line => .ok line
  | none => .error (.missingLineMark f)

def clearLineMark (s : Scratch) (f : Family) : Scratch :=
  s.setSlot { s.slot f with lineMark := none } f

def pushFrame (s : Scratch) (f : Family) (frame : Frame) : Scratch :=
  s.setSlot { s.slot f with frames := frame :: (s.slot f).frames } f

/-- The frame pushed last. -/
def topFrame? (s : Scratch) (f : Family) : Option Frame :=
  (s.slot f).frames.head?

/-- Take off the frame pushed last. -/
def popFrame (s : Scratch) (f : Family) : Except ScratchError (Frame × Scratch) :=
  match (s.slot f).frames with
  | frame :: frames => .ok (frame, s.setSlot { s.slot f with frames } f)
  | [] => .error (.emptyFrameStack f)

end Scratch

end LexTree
