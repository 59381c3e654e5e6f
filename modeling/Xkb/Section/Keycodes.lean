import Xkb.Section.Draft

/-! Keycodes sections: the names of keys and indicators, and key aliases. -/

namespace Xkb

/-- What a keycodes section says of one code. -/
structure CodeSlot where
  name : KeyName
  origin : Origin
  /-- Whether the code is a further one for a key that has a code already. -/
  alternate : Bool
deriving DecidableEq, Inhabited

/-- A name for an indicator, which counts from 1. -/
structure IndicatorName where
  definition : Definition
  index : Nat
  name : String
  isVirtual : Bool
deriving DecidableEq, Inhabited

/-- A second name for a key, which may itself be a second name. -/
structure AliasDefinition where
  definition : Definition
  name : KeyName
  real : KeyName
deriving DecidableEq, Inhabited

/-- What a keycodes section holds. -/
structure KeycodeContents where
  /-- The lowest and the highest code that was defined. -/
  covered : Option (Nat × Nat)
  minimum : Option Nat
  maximum : Option Nat
  /-- The lowest code that is accepted. -/
  low : Nat
  /-- The highest code that is accepted. -/
  high : Nat
  slots : Vector CodeSlot 256
  indicators : List IndicatorName
  aliases : List AliasDefinition
deriving DecidableEq, Inhabited

namespace KeycodeContents

/-- A code that has no key. -/
def freeSlot : CodeSlot :=
  ⟨KeyName.empty, .initial, false⟩

/-- A section without keys. -/
def empty : KeycodeContents where
  covered := none
  minimum := none
  maximum := none
  low := lowestKeycode
  high := highestKeycode
  slots := Vector.replicate 256 freeSlot
  indicators := []
  aliases := []

/-- What is said of a code. -/
def slotAt (contents : KeycodeContents) (code : Nat) : CodeSlot :=
  (contents.slots[code]?).getD freeSlot

/-- The contents with what is said of a code changed. -/
def setSlot (contents : KeycodeContents) (code : Nat) (slot : CodeSlot) : KeycodeContents :=
  { contents with slots := contents.slots.setIfInBounds code slot }

/-- The first accepted code of a key. -/
def find (contents : KeycodeContents) (name : KeyName) : Option Nat :=
  (List.range' contents.low (contents.high + 1 - contents.low)).find? fun code =>
    (contents.slotAt code).name == name

/-- Whether a code is not accepted. -/
def isOutside (contents : KeycodeContents) (code : Int) : Bool :=
  code < contents.low || contents.high < code

/-- Notes that a code is not accepted, once for each end of the range. -/
def noteOutside (contents : KeycodeContents) (code : Int) (name : KeyName) : Report Unit := do
  let below := code < contents.low
  let side := if below then "below" else "above"
  let bound := if below then contents.low else contents.high
  if (← Report.level) > 1 then
    if ← Report.firstTime s!"keycodes {side} range" then
      Report.info (s!"Keycodes {side} {bound} (e.g. {name.label} = {code}) "
        ++ "are not supported and are ignored")

/-- The contents after a code was defined. -/
def cover (contents : KeycodeContents) (code : Nat) : KeycodeContents :=
  { contents with covered := some (match contents.covered with
      | some (low, high) => (min low code, max high code)
      | none => (code, code)) }

/-- Reports that two names were given for a code. -/
def warnNames (wanted : Bool) (code : Nat) (used ignored : KeyName) : Report Unit := do
  if wanted then
    Report.warn s!"Multiple names for keycode {code}"
      [s!"Using {used.label}, ignoring {ignored.label}"]

/-- Reports that two codes were given for a name. -/
def warnCodes (wanted : Bool) (name : KeyName) (used ignored : Nat) (advice : List String) :
    Report Unit := do
  if wanted then
    Report.warn s!"Key name {name.label} assigned to multiple keys"
      (s!"Using {used}, ignoring {ignored}" :: advice)

/-- Puts a name on a code that has no other: an earlier code of the name loses it, shares it or
keeps it, as the mode says. -/
def placeKey (contents : KeycodeContents) (code : Nat) (name : KeyName) (mode : MergeMode)
    (origin : Origin) (report : Bool) : Report KeycodeContents := do
  let place (contents : KeycodeContents) : KeycodeContents :=
    contents.setSlot code ⟨name, origin, mode == .alternate⟩
  match (contents.find name).filter (· != code) with
  | none => return place contents
  | some old =>
    match mode with
    | .override =>
      warnCodes report name code old []
      return place (contents.setSlot old { freeSlot with alternate := true })
    | .alternate =>
      return place (contents.setSlot old { contents.slotAt old with alternate := true })
    | _ =>
      warnCodes (report && (← Report.level) > 3) name old code
        ["Use 'alternate' keyword to assign the same name to multiple keys"]
      return contents

/-- Adds the name of a code, where codes with two names and names with two codes are resolved as
the mode says. -/
def addKey (contents : KeycodeContents) (code : Nat) (name : KeyName) (mode : MergeMode)
    (origin : Origin) (mayReport : Bool) : Report KeycodeContents := do
  if contents.isOutside code then
    contents.noteOutside code name
    return contents
  let contents := contents.cover code
  let level ← Report.level
  let slot := contents.slotAt code
  let report := mayReport && (level > 7 || (level > 0 && origin == slot.origin))
  if slot.name.isEmpty then contents.placeKey code name mode origin report
  else if slot.name == name then
    if slot.alternate || mode == .alternate then
      return contents.setSlot code { slot with alternate := true }
    if report then
      Report.warn "Multiple identical key name definitions"
        [s!"Later occurrences of \"{name.label} = {code}\" ignored"]
    return contents
  else if mode == .augment then
    warnNames report code slot.name name
    return contents
  else
    warnNames report code name slot.name
    let cleared := contents.setSlot code { freeSlot with alternate := slot.alternate }
    cleared.placeKey code name mode origin report

/-- How messages name the two kinds of indicator. -/
def indicatorWord (isVirtual : Bool) : String :=
  if isVirtual then "virtual" else "real"

/-- Adds the name of an indicator by its index: the name of an earlier one stays unless the mode
says otherwise. -/
def addIndicatorAt (contents : KeycodeContents) (new : IndicatorName) : Report KeycodeContents := do
  let replaces := new.definition.merge.replacesEntity
  match contents.indicators.find? (·.index == new.index) with
  | none => return { contents with indicators := contents.indicators ++ [new] }
  | some old =>
    if reportsClash old.definition.origin new.definition.origin (← Report.level) then
      let action :=
        if old.name == new.name && old.isVirtual == new.isVirtual then
          "Identical definitions ignored"
        else
          let (used, ignored) := if replaces then (new.name, old.name) else (old.name, new.name)
          s!"Using {indicatorWord old.isVirtual} indicator {used}, "
            ++ s!"ignoring {indicatorWord new.isVirtual} indicator {ignored}"
      Report.warn s!"Multiple names for indicator {new.index}" [action]
    if replaces then
      let rename (known : IndicatorName) : IndicatorName :=
        { known with name := new.name, isVirtual := new.isVirtual }
      let indicators := changeFirst (·.index == new.index) rename contents.indicators
      return { contents with indicators }
    return contents

/-- Adds the name of an indicator, where a name with two indexes is looked at first and an index
with two names then. -/
def addIndicator (contents : KeycodeContents) (new : IndicatorName) : Report KeycodeContents := do
  let replaces := new.definition.merge.replacesEntity
  match contents.indicators.find? (·.name == new.name) with
  | none => contents.addIndicatorAt new
  | some old =>
    if !reportsClash old.definition.origin new.definition.origin (← Report.level) then
      contents.addIndicatorAt new
    else
      let warn (action : String) : Report Unit :=
        Report.warn s!"Multiple indicators named {new.name}" [action]
      if old.index == new.index then
        if old.isVirtual == new.isVirtual then
          warn "Identical definitions ignored"
          return contents
        let isVirtual := if replaces then new.isVirtual else old.isVirtual
        warn s!"Using {indicatorWord isVirtual} instead of {indicatorWord (!isVirtual)}"
        let indicators :=
          changeFirst (·.name == new.name) ({ · with isVirtual }) contents.indicators
        return { contents with indicators }
      else if replaces then
        warn s!"Ignoring {old.index}, using {new.index}"
        let indicators := contents.indicators.eraseP (·.name == new.name)
        { contents with indicators }.addIndicatorAt new
      else
        warn s!"Using {old.index}, ignoring {new.index}"
        contents.addIndicatorAt new

/-- Adds a key alias, where a later one for the same name counts unless it augments. -/
def addAlias (contents : KeycodeContents) (new : AliasDefinition) : Report KeycodeContents := do
  match contents.aliases.find? (·.name == new.name) with
  | none => return { contents with aliases := contents.aliases ++ [new] }
  | some old =>
    let takesNew := old.real != new.real && new.definition.merge.clobbers
    if reportsClash old.definition.origin new.definition.origin (← Report.level) then
      if old.real == new.real then
        Report.warn s!"Alias of {new.name.label} for {new.real.label} declared more than once"
          ["First definition ignored"]
      else
        let (used, ignored) := if takesNew then (new.real, old.real) else (old.real, new.real)
        Report.warn s!"Multiple definitions for alias {new.name.label}"
          [s!"Using {used.label}, ignoring {ignored.label}"]
    let update (known : AliasDefinition) : AliasDefinition :=
      { known with
        real := if takesNew then new.real else known.real
        definition := { known.definition with
          origin := new.definition.origin, merge := new.definition.merge } }
    return { contents with aliases := changeFirst (·.name == new.name) update contents.aliases }

/-- Handles a statement that gives a key its code. -/
def handleKey (contents : KeycodeContents) (header : Header) (mode merge : MergeMode)
    (name : KeyName) (value : Int64) : Report KeycodeContents := do
  let code := value.toInt
  if contents.isOutside code then
    contents.noteOutside code name
    return contents
  let mode :=
    match merge with
    | .unspecified => mode
    | .replace => .override
    | other => other
  contents.addKey code.toNat name mode header.origin true

/-- Sets the lowest code, unless it is above the highest one or above a key. -/
def setMinimum (contents : KeycodeContents) (value : Nat) : Report (KeycodeContents × Bool) := do
  let refuse (bound : String) : Report (KeycodeContents × Bool) := do
    Report.error (s!"Minimum key code ({value}) must be <= " ++ bound)
      ["Minimum key code value not changed"]
    return (contents, false)
  match contents.maximum.filter (· < value), contents.covered.filter (·.1 < value) with
  | some high, _ => refuse s!"maximum key code ({high})"
  | none, some (lowest, _) => refuse s!"lowest defined key ({lowest})"
  | none, none => return ({ contents with minimum := some value, low := value }, true)

/-- Sets the highest code, unless it is below the lowest one or below a key. -/
def setMaximum (contents : KeycodeContents) (value : Nat) : Report (KeycodeContents × Bool) := do
  let refuse (bound : String) : Report (KeycodeContents × Bool) := do
    Report.error (s!"Maximum code ({value}) must be >= " ++ bound)
      ["Maximum code value not changed"]
    return (contents, false)
  match contents.minimum.filter (value < ·), contents.covered.filter (value < ·.2) with
  | some low, _ => refuse s!"minimum key code ({low})"
  | none, some (_, highest) => refuse s!"highest defined key ({highest})"
  | none, none => return ({ contents with maximum := some value, high := value }, true)

/-- Sets the lowest or the highest code; a code that is too high is cut off and sets the
highest. -/
def setBound (contents : KeycodeContents) (isMinimum : Bool) (field : String) (value : Int64) :
    Report (KeycodeContents × Bool) := do
  let value := value.toInt
  if value < lowestKeycode then
    Report.error s!"Illegal keycode {value} (must be in the range 8-255 inclusive)"
      [s!"Value of \"{field}\" not changed"]
    return (contents, false)
  else if highestKeycode < value then
    Report.warn s!"Unsupported maximum keycode {value}, clipping."
      ["X11 cannot support keycodes above 255."]
    return ({ contents with maximum := some highestKeycode, high := highestKeycode }, true)
  else if isMinimum then contents.setMinimum value.toNat
  else contents.setMaximum value.toNat

/-- Handles an assignment to one of the fields of the section. -/
def handleField (contents : KeycodeContents) (target : Target) (value : Option Expr) :
    Report (KeycodeContents × Bool) := do
  let field := target.field
  let refuse (message : String) (actions : List String) : Report (KeycodeContents × Bool) := do
    Report.error message actions
    return (contents, false)
  if let some element := target.element then
    return ← refuse s!"Unknown element {element} encountered"
      [s!"Default for field {field} ignored"]
  let isMinimum := Text.sameName field "minimum"
  unless isMinimum || Text.sameName field "maximum" do
    return ← refuse "Unknown field encountered" [s!"Assignment to field {field} ignored"]
  if target.index.isSome then
    return ← refuse s!"The {field} setting is not an array" ["Illegal array reference ignored"]
  match value.map (·.toInteger Lookup.none) with
  | none => refuse s!"Missing value for {field}" [s!"Assignment to field {field} ignored"]
  | some (.error error) => refuse error.message [s!"Assignment to field {field} ignored"]
  | some (.ok value) => contents.setBound isMinimum field value

/-- Handles an assignment at the top of the section. -/
def handleAssignment (contents : KeycodeContents) (assigned : Assignment) :
    Report (KeycodeContents × Bool) := do
  match assigned.target.map Expr.toTarget with
  | none =>
    Report.error "Missing field name in keycodes assignment" []
    return (contents, false)
  | some (.error error) =>
    Report.error error.message []
    return (contents, false)
  | some (.ok target) => contents.handleField target assigned.value

/-- Handles a statement that names an indicator. -/
def handleIndicator (contents : KeycodeContents) (header : Header) (mode : MergeMode)
    (index : Int64) (name : Expr) (isVirtual : Bool) : Report (KeycodeContents × Bool) := do
  if index < 1 || 32 < index then
    Report.error s!"Name specified for illegal indicator index {index.toInt}" ["Ignored"]
    return (contents, false)
  match name.toText with
  | .error _ =>
    Report.error s!"The name field of indicator {index.toInt} must be a string" []
    return (contents, false)
  | .ok name =>
    let definition := Definition.start header.origin mode
    return (← contents.addIndicator ⟨definition, index.toInt.toNat, name, isVirtual⟩, true)

/-- Handles a statement of the section. -/
def handle (header : Header) (mode : MergeMode) (statement : Statement)
    (contents : KeycodeContents) : Report (KeycodeContents × Bool) := do
  match statement with
  | .keycode merge name value => return (← contents.handleKey header mode merge name value, true)
  | .keyAlias merge name real =>
    let definition := Definition.start header.origin (merge.or mode)
    return (← contents.addAlias ⟨definition, name, real⟩, true)
  | .assignment assigned => contents.handleAssignment assigned
  | .indicatorName merge index name isVirtual =>
    contents.handleIndicator header (merge.or mode) index name isVirtual
  | other =>
    Report.error "Keycode files may define key and indicator names only"
      [s!"Ignoring definition of {other.description}"]
    return (contents, false)

/-- Adds the keys of another section. -/
def absorbKeys (mode : MergeMode) (origin : Origin) (new old : KeycodeContents) :
    Report KeycodeContents :=
  match new.covered with
  | none => return old
  | some (low, high) =>
    (List.range' low (high + 1 - low)).foldlM
      (fun contents code =>
        let slot := new.slotAt code
        if slot.name.isEmpty then return contents
        else
          contents.addKey code slot.name (if slot.alternate then .alternate else mode) origin false)
      old

/-- The wider of two ranges. -/
def widen (new old : KeycodeContents) : KeycodeContents :=
  let lowered :=
    match new.minimum with
    | some low =>
      if old.minimum.all (low < ·) then { old with minimum := some low, low } else old
    | none => old
  match new.maximum with
  | some high =>
    if lowered.maximum.all (· < high) then { lowered with maximum := some high, high } else lowered
  | none => lowered

/-- Adds what another section holds. -/
def absorb (mode : MergeMode) (header : Header) (new old : KeycodeContents) :
    Report KeycodeContents := do
  let contents ← absorbKeys mode header.origin new old
  let contents ← new.indicators.foldlM
    (fun contents indicator =>
      contents.addIndicator { indicator with definition := indicator.definition.inMode mode })
    contents
  let contents ← new.aliases.foldlM
    (fun contents known =>
      contents.addAlias { known with definition := known.definition.inMode mode })
    contents
  return widen new contents

/-- The contents after an include of the whole range. -/
def includeWholeRange (contents : KeycodeContents) : KeycodeContents :=
  { contents with
    minimum := some lowestKeycode, maximum := some highestKeycode
    low := lowestKeycode, high := highestKeycode }

instance : SectionContents KeycodeContents where
  kind := .keycodes
  noun := "keycodes file"
  empty := empty
  forTerm _ _ := empty
  builtin term contents :=
    if term.file == some "computed" then some contents.includeWholeRange else none
  mode mode := mode
  declaresModifiers := false
  handle _ header mode statement contents := contents.handle header mode statement
  absorb _ mode header new old := return (← absorb mode header new old, 0)

/-- The lowest and the highest code of the section: as given, else as defined, else as legal. -/
def range (contents : KeycodeContents) : Nat × Nat :=
  ((contents.minimum <|> contents.covered.map Prod.fst).getD lowestKeycode,
    (contents.maximum <|> contents.covered.map Prod.snd).getD highestKeycode)

/-- The name behind a chain of aliases, where `seen` are the names on the way; a chain that comes
back to one of them has none. -/
def followAliases (aliases : List AliasDefinition) (isKey : KeyName → Bool) :
    Nat → List KeyName → KeyName → Option KeyName
  | 0, _, _ => none
  | limit + 1, seen, name =>
    if isKey name then some name
    else
      match aliases.find? (·.name == name) with
      | none => some name
      | some next =>
        if seen.contains name then none
        else followAliases aliases isKey limit (name :: seen) next.real

/-- The key that an alias is for, unless the alias is of no use. -/
def resolveAlias (aliases : List AliasDefinition) (isKey : KeyName → Bool)
    (known : AliasDefinition) : Report (Option KeyAlias) := do
  let level ← Report.level
  if isKey known.name then
    if level > 4 then
      Report.warn "Attempt to create alias with the name of a real key"
        [s!"Alias \"{known.name.label} = {known.real.label}\" ignored"]
    return none
  let behind := followAliases aliases isKey (aliases.length + 1) [known.name] known.real
  match behind.filter (· != known.name) with
  | none =>
    Report.warn s!"Alias {known.name.label} is part of an alias cycle" ["Ignored"]
    return none
  | some real =>
    if isKey real then return some ⟨known.name, real⟩
    if level > 4 then
      Report.warn s!"Attempt to alias {known.name.label} to non-existent key {known.real.label}"
        ["Ignored"]
    return none

/-- The aliases that stand for keys, in the order they were defined. -/
def resolveAliases (aliases : List AliasDefinition) (isKey : KeyName → Bool) :
    Report (List KeyAlias) :=
  return (← aliases.mapM (resolveAlias aliases isKey)).filterMap id

/-- The table with the names of the codes that the section defines. -/
def applyNames (contents : KeycodeContents) (names : Vector KeyName 256) : Vector KeyName 256 :=
  match contents.covered with
  | none => names
  | some (low, high) =>
    (List.range' low (high + 1 - low)).foldl
      (fun names code => names.setIfInBounds code (contents.slotAt code).name) names

/-- The table with the name of an indicator. -/
def applyIndicator (table : KeycodeTable) (indicator : IndicatorName) : KeycodeTable :=
  let slot := indicator.index - 1
  { table with
    indicatorNames := table.indicatorNames.setIfInBounds slot (some indicator.name)
    physical := switch32 table.physical (bit32 slot) (!indicator.isVirtual) }

/-- The table of keycodes with what the section defines. -/
def apply (contents : KeycodeContents) (name : Option String) (table : KeycodeTable) :
    Report KeycodeTable := do
  let (low, high) := contents.range
  let names := contents.applyNames table.names
  let named := contents.indicators.foldl applyIndicator { table with name, low, high, names }
  let aliases ←
    resolveAliases contents.aliases fun name => (named.findNamed name 0).isSome
  return { named with aliases }

end KeycodeContents

end Xkb
