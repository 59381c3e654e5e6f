import Xkb.Keymap.Keycodes
import Xkb.VirtualModifier

/-! What the names in a section refer to beyond the section itself. -/

namespace Xkb

/-- The virtual modifiers and the keys that names refer to. -/
structure Scope where
  modifiers : VirtualModifiers
  keycodes : KeycodeTable

end Xkb
