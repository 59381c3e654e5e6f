/-! The kinds of section a source text is made of. -/

namespace Xkb

/-- The kinds of section. -/
inductive SectionKind where
  | keycodes
  | types
  | compatibility
  | symbols
  | geometry
  | keymap
  | semantics
  | layout
deriving DecidableEq, Inhabited

namespace SectionKind

/-- The directory of an include root that holds the sections of a kind. -/
def directory : SectionKind → String
  | keycodes => "keycodes"
  | types => "types"
  | compatibility => "compat"
  | symbols => "symbols"
  | geometry => "geometry"
  | keymap | semantics | layout => "keymap"

/-- How messages name a kind. -/
def label : SectionKind → String
  | keycodes => "keycodes"
  | types => "types"
  | compatibility => "compatibility map"
  | symbols => "symbols"
  | geometry => "geometry"
  | keymap => "keymap"
  | semantics => "semantics"
  | layout => "layout"

/-- Whether sections of a kind are made of other sections. -/
def isComposite : SectionKind → Bool
  | keymap | semantics | layout => true
  | _ => false

/-- The kind that a keyword in lower case introduces. -/
def ofKeyword : String → Option SectionKind
  | "xkb_keymap" => some keymap
  | "xkb_semantics" => some semantics
  | "xkb_layout" => some layout
  | "xkb_keycodes" => some keycodes
  | "xkb_types" => some types
  | "xkb_compatibility" | "xkb_compatibility_map" | "xkb_compat" | "xkb_compat_map" =>
    some compatibility
  | "xkb_symbols" => some symbols
  | "xkb_geometry" => some geometry
  | _ => none

end SectionKind

end Xkb
