import MiniScheme.Machine.Basic
import MiniScheme.Text.Shown

/-!
# Describing frames

Names are listed in the order of their characters, each once. The description of
a frame shows the names bound in it and whether it is a global one, but no
values: a frame can be reached from its own values.
-/

namespace MiniScheme

/-- The names in order, each once. -/
def sortedNames (names : List String) : List String :=
  names.eraseDups.mergeSort fun a b => a ≤ b

/-- The description of a frame. -/
def Frame.description (f : Frame) : String :=
  let names := (sortedNames f.bindings.names).map Shown.name
  "Environment \x7b bindings: [" ++ ", ".intercalate names ++ "], global: " ++
    (if f.isGlobal then "true" else "false") ++ " \x7d"

end MiniScheme
