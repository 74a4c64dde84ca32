import SiteOperator.TextOrder

/-!
# Log filters

A filter is a list of directives, separated by commas.  A directive sets the most verbose level
for the targets that begin with a name, and perhaps only for events that have certain fields.  Of
the directives that concern an event the most specific one decides.  Directives about spans
concern no event of the program itself.
-/

namespace SiteOperator

/-- The levels of events, from silence to the most verbose. -/
inductive LogLevel where
  | off
  | error
  | warn
  | info
  | debug
  | trace
  deriving DecidableEq

namespace LogLevel

def all : List LogLevel := [off, error, warn, info, debug, trace]

def rank : LogLevel → Nat
  | off => 0
  | error => 1
  | warn => 2
  | info => 3
  | debug => 4
  | trace => 5

def name : LogLevel → String
  | off => "OFF"
  | error => "ERROR"
  | warn => "WARN"
  | info => "INFO"
  | debug => "DEBUG"
  | trace => "TRACE"

def number? (cs : List Char) : Option Nat :=
  let digits := match cs with
    | '+' :: rest => rest
    | _ => cs
  if digits.isEmpty || !digits.all Char.isDigit then none
  else some (digits.foldl (fun n c => n * 10 + (c.toNat - '0'.toNat)) 0)

def ofText? (cs : List Char) : Option LogLevel :=
  match number? cs with
  | some n => all.find? fun level => level.rank = n
  | none => all.find? fun level => level.name = String.ofList (cs.map Char.toUpper)

end LogLevel

/-- An event of the log. -/
structure LogEvent where
  level : LogLevel
  target : String
  fields : List String
  message : String
  deriving DecidableEq

/-- A directive of a filter. -/
structure LogDirective where
  level : LogLevel
  target : Option String
  inSpan : Bool
  /-- The fields that an event must have, and whether the directive asks for their values. -/
  fields : List (String × Bool)
  deriving DecidableEq

namespace LogDirective

def blank : LogDirective := ⟨.trace, none, false, []⟩

def field (cs : List Char) : String × Bool :=
  (String.ofList (cs.takeWhile (· ≠ '=')), cs.contains '=')

/-- Where the reading of a directive stands; a position is that of the part being read. -/
inductive ReadState where
  | start
  | levelOrTarget (position : Nat)
  | span (position : Nat)
  | field (position : Nat)
  | fields
  | target
  | level (position : Nat)
  deriving DecidableEq

def part (cs : List Char) (first last : Nat) : List Char := (cs.drop first).take (last - first)

def mayBegin (c : Char) : Bool := c.isAlphanum || ['-', ':', '_'].contains c || 128 ≤ c.toNat

def readChar (text : List Char) (index : Nat) (c : Char) (state : ReadState)
    (directive : LogDirective) : Option (ReadState × LogDirective) :=
  let target (position : Nat) : LogDirective :=
    { directive with target := some (String.ofList (part text position index)) }
  match state with
  | .start =>
      if c = '[' then some (.span (index + 1), directive)
      else if mayBegin c then some (.levelOrTarget index, directive)
      else none
  | .levelOrTarget position =>
      if c = '=' then some (.level (index + 1), target position)
      else if c = '[' then some (.span (index + 1), target position)
      else some (state, directive)
  | .target => if c = '=' then some (.level (index + 1), directive) else none
  | .span position =>
      if c = ']' then some (.target, { directive with inSpan := true })
      else if c = '\x7b' then
        some (.field (index + 1),
          { directive with inSpan := !(part text position index).isEmpty })
      else some (state, directive)
  | .field position =>
      if c = '\x7d' then
        let name := part text position index
        if name.isEmpty then none
        else some (.fields, { directive with fields := directive.fields ++ [field name] })
      else some (state, directive)
  | .fields => if c = ']' then some (.target, directive) else none
  | .level _ => some (state, directive)

def readChars (text : List Char) : Nat → List Char → ReadState → LogDirective →
    Option (ReadState × LogDirective)
  | _, [], state, directive => some (state, directive)
  | index, c :: rest, state, directive =>
      (readChar text index c state directive).bind fun (state, directive) =>
        readChars text (index + 1) rest state directive

def complete (text : List Char) (state : ReadState) (directive : LogDirective) :
    Option LogDirective :=
  match state with
  | .levelOrTarget position =>
      let name := text.drop position
      match LogLevel.ofText? name with
      | some level => some { directive with level := level, target := none }
      | none =>
          some { directive with level := .trace, target := some (String.ofList name) }
  | .level position =>
      let name := text.drop position
      if name.isEmpty then some { directive with level := .trace }
      else (LogLevel.ofText? name).map fun level => { directive with level := level }
  | .target => some directive
  | _ => none

def trim (cs : List Char) : List Char :=
  ((cs.dropWhile Char.isWhitespace).reverse.dropWhile Char.isWhitespace).reverse

/-- Reads a directive.  Positions are counted in the text without its leading blanks but taken from
the text with them. -/
def parse? (text : List Char) : Option LogDirective :=
  (readChars text 0 (trim text) .start .blank).bind fun (state, directive) =>
    complete text state directive

/-- Whether a directive can decide about an event outside of any span. -/
def isStatic (directive : LogDirective) : Bool :=
  !directive.inSpan && directive.fields.all fun field => !field.2

def concerns (directive : LogDirective) (event : LogEvent) : Bool :=
  (match directive.target with
    | some target => target.toList.isPrefixOf event.target.toList
    | none => true) &&
    directive.fields.all fun field => event.fields.contains field.1

/-- The bytes of a directive's target; no target is less than an empty one. -/
def targetSize (directive : LogDirective) : Nat :=
  match directive.target with
  | some target => target.utf8ByteSize + 1
  | none => 0

def fieldNames (directive : LogDirective) : List String := directive.fields.map (·.1)

/-- Whether one directive is at least as specific as another one: by the size of the target, then by
the number of fields, and then by their names. -/
def atLeast (a b : LogDirective) : Bool :=
  decide (b.targetSize < a.targetSize) ||
    (a.targetSize = b.targetSize &&
      (decide (b.fields.length < a.fields.length) ||
        (a.fields.length = b.fields.length && textsLe b.fieldNames a.fieldNames)))

end LogDirective

/-- The directives of a filter. -/
abbrev LogFilter := List LogDirective

namespace LogFilter

def pieces : List Char → List Char → List (List Char)
  | piece, [] => [piece.reverse]
  | piece, c :: rest =>
      if c = ',' then piece.reverse :: pieces [] rest else pieces (c :: piece) rest

/-- Reads a filter; nothing if one of its directives cannot be read. -/
def parse? (text : String) : Option LogFilter :=
  ((pieces [] text.toList).filter fun piece => !piece.isEmpty).mapM LogDirective.parse?

def standard : LogFilter := [{ LogDirective.blank with level := .info }]

def ofSetting : Option String → LogFilter
  | some text => (parse? text).getD standard
  | none => standard

/-- The directive that decides about an event: of those that concern it the most specific one, and
of equally specific ones the last one. -/
def deciding? (filter : LogFilter) (event : LogEvent) : Option LogDirective :=
  (filter.filter fun d => d.isStatic && d.concerns event).foldl
    (fun best d => match best with
      | none => some d
      | some b => if d.atLeast b then some d else some b)
    none

def admits (filter : LogFilter) (event : LogEvent) : Bool :=
  match filter.deciding? event with
  | some directive => event.level.rank ≤ directive.level.rank
  | none => false

end LogFilter

end SiteOperator
