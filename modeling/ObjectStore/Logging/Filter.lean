import ObjectStore.Logging.Pattern.Reading
import ObjectStore.Signal.Notice
import ObjectStore.Text.Pieces
import ObjectStore.Text.Utf8

/-! # Log filters

Which notices are shown is said by a list of **directives** between commas, such as
`warn,asto::lock=debug`. A directive gives a level, for everything or for what comes from a target and
from beneath it.

* **`Directive`** — one directive; **`Directive.parse?`** reads it.
* **`Rule`** — what a directive says about notices.
* **`Filter`** — the rules, the most specific first; **`Filter.allows`** asks the first that applies.
* **`Filter.parse?`** and **`Filter.parseLossy`** — the filter of a text, where a directive that is
  not well formed spoils the whole or is dropped. -/

namespace ObjectStore

/-- A level of detail: how many severities, from the gravest on, are shown. -/
abbrev Level := Nat

namespace Level

/-- The level that shows every notice. -/
def everything : Level := Severity.trace.rank

/-- The level that shows only errors. -/
def errorsOnly : Level := Severity.error.rank

/-- The name of the level that shows nothing. -/
def offName : String := "OFF"

/-- The levels that have a name. -/
def named : List (String × Level) :=
  (offName, 0) :: [Severity.error, .warn, .info, .debug, .trace].map fun s => (s.name, s.rank)

/-- The value of a numeral with an optional plus sign. -/
def numeral? (text : List Char) : Option Nat :=
  let digits := match text with
    | '+' :: rest => rest
    | text => text
  if digits.isEmpty || digits.any (fun c => !c.isDigit) then none
  else some (digits.foldl (fun n c => 10 * n + (c.toNat - 48)) 0)

/-- The level that a text names, by a number up to 5 or by a name in any case. -/
def parse? (text : List Char) : Option Level :=
  match numeral? text with
  | some n => if n ≤ 5 then some n else none
  | none => named.lookup (String.ofList (text.map Char.toUpper))

end Level

/-! ## Directives -/

/-- What the value of a field must be. -/
inductive ValueCondition where
  /-- A number. -/
  | number (text : List Char)
  /-- What matches a pattern. -/
  | pattern (pattern : Pattern)

/-- A condition on a field of what encloses a notice. -/
structure FieldCondition where
  name : List Char
  /-- What the field's value must be, if that matters. -/
  value : Option ValueCondition

/-- One directive. -/
structure Directive where
  level : Level := Level.everything
  /-- What the origin of a notice must begin with. -/
  target : Option (List Char) := none
  /-- The name of an activity that must enclose the notice. -/
  activity : Option (List Char) := none
  fields : List FieldCondition := []

namespace Directive

/-- How far a directive has been read. -/
inductive Stage where
  | start
  /-- A level or a target began at a place. -/
  | levelOrTarget (start : Nat)
  /-- An activity began at a place. -/
  | activity (start : Nat)
  /-- A field began at a place. -/
  | field (start : Nat)
  /-- The fields have ended. -/
  | fields
  /-- The conditions have ended. -/
  | conditions
  /-- A level began at a place. -/
  | level (start : Nat)
  deriving DecidableEq, Repr

/-- A text without the white space around it. -/
def trim (text : List Char) : List Char :=
  ((text.dropWhile isSpace).reverse.dropWhile isSpace).reverse

/-- The part of a text between two places. -/
def slice (text : List Char) (start stop : Nat) : List Char := (text.take stop).drop start

/-- The value that a text asks for: a number, or a usable pattern. -/
def valueCondition? (text : List Char) : Option ValueCondition :=
  if isNumeral text then some (.number text)
  else ((Pattern.parse? text).filter Pattern.isUsable).map .pattern

/-- The condition that a text in braces states: a name, or a name and a value. A second equals sign
ends the value. -/
def fieldCondition? (text : List Char) : Option FieldCondition :=
  let name := text.takeWhile (· ≠ '=')
  match text.drop name.length with
  | [] => if name.isEmpty then none else some { name, value := none }
  | _ :: value => (valueCondition? (value.takeWhile (· ≠ '='))).map fun v => { name, value := some v }

/-- A directive begins with a letter, a digit or one of a few marks. -/
def beginsWord (c : Char) : Bool := c == '-' || c == ':' || c == '_' || isAlphanumeric c

/-- Read the character at a place. The parts of a directive are cut out of `text` between the places
where their marks stand. -/
def advance (text : List Char) (d : Directive) (place : Nat) (c : Char) :
    Stage → Option (Stage × Directive)
  | .start =>
    if c == '[' then some (.activity (place + 1), d)
    else if beginsWord c then some (.levelOrTarget place, d)
    else none
  | .levelOrTarget start =>
    if c == '=' then some (.level (place + 1), { d with target := some (slice text start place) })
    else if c == '[' then
      some (.activity (place + 1), { d with target := some (slice text start place) })
    else some (.levelOrTarget start, d)
  | .activity start =>
    let name := slice text start place
    if c == ']' then some (.conditions, { d with activity := some name })
    else if c == '\x7b' then
      some (.field (place + 1), { d with activity := if name.isEmpty then none else some name })
    else some (.activity start, d)
  | .field start =>
    if c == '\x7d' then do
      let condition ← fieldCondition? (slice text start place)
      return (.fields, { d with fields := d.fields ++ [condition] })
    else some (.field start, d)
  | .fields => if c == ']' then some (.conditions, d) else none
  | .conditions => if c == '=' then some (.level (place + 1), d) else none
  | .level start => some (.level start, d)

/-- Read all characters from a place on. -/
def advanceAll (text : List Char) (place : Nat) :
    List Char → Stage × Directive → Option (Stage × Directive)
  | [], state => some state
  | c :: more, (stage, d) =>
    (advance text d place c stage).bind (advanceAll text (place + 1) more)

/-- Finish a directive that has been read to its end. A word that is no level is a target, of which
everything is shown; so is what has conditions and no level. -/
def finish (text : List Char) : Stage × Directive → Option Directive
  | (.levelOrTarget start, d) =>
    let word := text.drop start
    match Level.parse? word with
    | some level => some { d with level, target := none }
    | none => some { d with level := .everything, target := some word }
  | (.level start, d) =>
    let word := text.drop start
    if word.isEmpty then some { d with level := .everything }
    else (Level.parse? word).map fun level => { d with level }
  | (.conditions, d) => some d
  | _ => none

/-- The directive of a text. Its marks are sought in the text without the blanks around it, and its
parts are cut out at the same places of the whole text, so blanks before a directive spoil it. -/
def parse? (text : List Char) : Option Directive :=
  (advanceAll text 0 (trim text) (.start, {})).bind (finish text)

/-- Whether a directive depends on what encloses a notice. -/
def isDynamic (d : Directive) : Bool := d.activity.isSome || !d.fields.isEmpty

end Directive

/-! ## Rules -/

/-- What a directive says about notices, whatever encloses them. -/
structure Rule where
  target : Option (List Char)
  /-- The names of fields that a notice must have. -/
  fields : List (List Char)
  level : Level
  deriving DecidableEq, Repr

namespace Rule

/-- The rule of a directive. One that names an activity or the value of a field says nothing about
notices alone. -/
def ofDirective (d : Directive) : Option Rule :=
  if d.activity.isSome || d.fields.any (·.value.isSome) then none
  else some { target := d.target, fields := d.fields.map FieldCondition.name, level := d.level }

/-- Rules are ordered by how specific they are: by the bytes of the target, then by the number of
fields, and then by the texts themselves. -/
def order (a b : Rule) : Ordering :=
  (compare (a.target.map Utf8.size) (b.target.map Utf8.size)).then <|
    (compare a.fields.length b.fields.length).then <|
      (compare a.target b.target).then (compare a.fields b.fields)

/-- Put a rule among others, the most specific first. It replaces one that applies to the same. -/
def insert (rule : Rule) : List Rule → List Rule
  | [] => [rule]
  | other :: more =>
    match order rule other with
    | .gt => rule :: other :: more
    | .eq => rule :: more
    | .lt => other :: insert rule more

/-- Whether a rule applies to a notice: the target is a beginning of its origin, and it has the
fields. -/
def appliesTo (rule : Rule) (n : Notice) : Bool :=
  rule.target.all (fun target => target.isPrefixOf n.origin.toList) &&
    rule.fields.all fun name => ("message" :: n.fields.map Prod.fst).contains (String.ofList name)

end Rule

/-! ## Filters -/

/-- The rules of a filter, the most specific first. -/
structure Filter where
  rules : List Rule
  deriving DecidableEq, Repr

namespace Filter

/-- The filter of some directives. Without any, errors are shown. -/
def ofDirectives (directives : List Directive) : Filter :=
  if directives.isEmpty then ⟨[{ target := none, fields := [], level := .errorsOnly }]⟩
  else
    let (dynamic, plain) := directives.partition Directive.isDynamic
    ⟨((plain ++ dynamic).filterMap Rule.ofDirective).foldl (fun rules rule => rule.insert rules) []⟩

/-- The texts between the commas of a text, without the empty ones. -/
def directiveTexts (text : String) : List (List Char) := Text.pieces ',' text.toList

/-- The filter of a text, if every directive is well formed. -/
def parse? (text : String) : Option Filter :=
  ((directiveTexts text).mapM Directive.parse?).map ofDirectives

/-- The filter of those directives of a text that are well formed. -/
def parseLossy (text : String) : Filter :=
  ofDirectives ((directiveTexts text).filterMap Directive.parse?)

/-- Whether a notice is shown: the most specific rule that applies decides, and without one it is
not. -/
def allows (filter : Filter) (n : Notice) : Bool :=
  match filter.rules.find? (·.appliesTo n) with
  | some rule => n.severity.rank ≤ rule.level
  | none => false

end Filter

end ObjectStore
