import Mathlib.Data.Nat.Notation

/-!
# Captured frames

A frame is what the walker reads off one `zend_execute_data`; a stack is a list
of frames, leaf first.  Every output prints the name of a frame the same way,
`Class::method` or the bare function.
-/

namespace PhpFastProfile

/-- One captured frame, `zend::Frame`. -/
structure Frame where
  function : String
  /-- The field `class`. -/
  className : Option String
  file : Option String
  line : UInt32
  deriving DecidableEq, Repr, Inhabited

/-- The printed name of a frame: the `match` on the class that `PprofBuilder::add`,
`FoldedSink::write_sample`, `render_frame` and `qualified_name` each write out. -/
def Frame.name (f : Frame) : String :=
  match f.className with
  | some c => c ++ "::" ++ f.function
  | none => f.function

end PhpFastProfile
