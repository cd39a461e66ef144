import StackedCache.Text.Numeral

/-!
# Command-line options

An option is a long name after two dashes, or for some options a letter after one dash.  Its value is
the next argument, or follows an equals sign; after a letter it may follow at once.  No option may
occur twice, and there are no arguments besides options.
-/

namespace StackedCache

/-- How a report is written. -/
inductive ReportFormat where
  | json
  | text
  deriving DecidableEq, Repr

/-- What a run of the program is asked to do. -/
structure Options where
  /-- The settings document; without one all settings keep their defaults. -/
  config : Option String := none
  /-- The request trace. -/
  trace : Option String := none
  /-- The thermal trace. -/
  thermal : Option String := none
  /-- The file for the report; without one it goes to the standard output. -/
  output : Option String := none
  /-- A filter for log messages, of which there are none. -/
  log : Option String := none
  /-- The length of an epoch in nanoseconds. -/
  epochNs : Nat := 1000000
  format : ReportFormat := .json
  /-- Show the settings instead of a replay. -/
  printConfig : Bool := false
  deriving DecidableEq, Repr

/-- The names of options. -/
inductive OptionName where
  | config
  | trace
  | thermal
  | output
  | log
  | epochNs
  | format
  | printConfig
  deriving DecidableEq, Repr

/-- Why a command line is refused. -/
inductive UsageFault where
  | unknownArgument (argument : String)
  | repeated (option : OptionName)
  | valueMissing (option : OptionName)
  | valueRefused (option : OptionName) (value : String)
  /-- A replay needs a request trace. -/
  | traceMissing
  deriving DecidableEq, Repr

namespace OptionName

def all : List OptionName :=
  [config, trace, thermal, output, log, epochNs, format, printConfig]

def long : OptionName → String
  | config => "config"
  | trace => "trace"
  | thermal => "thermal"
  | output => "output"
  | log => "log"
  | epochNs => "epoch-ns"
  | format => "format"
  | printConfig => "print-config"

def letter : OptionName → Option Char
  | config => some 'c'
  | trace => some 't'
  | output => some 'o'
  | _ => none

def takesValue (name : OptionName) : Bool := name ≠ printConfig

def ofLong? (name : List Char) : Option OptionName := all.find? fun o => o.long.toList = name

def ofLetter? (c : Char) : Option OptionName := all.find? fun o => o.letter = some c

/-- The option an argument names, and the value in the same argument. -/
def ofArgument? : List Char → Option (OptionName × Option (List Char))
  | '-' :: '-' :: s =>
      let name := s.takeWhile (· ≠ '=')
      (ofLong? name).map fun o => (o, (s.drop name.length).tail?)
  | '-' :: c :: '=' :: s => (ofLetter? c).map fun o => (o, some s)
  | '-' :: c :: s => (ofLetter? c).map fun o => (o, if s.isEmpty then none else some s)
  | _ => none

end OptionName

namespace Options

/-- An argument that cannot be a value because it looks like an option. -/
def isOption : List Char → Bool
  | '-' :: _ :: _ => true
  | _ => false

/-- The format with the given name. -/
def formatOf? : List Char → Option ReportFormat
  | ['j', 's', 'o', 'n'] => some .json
  | ['t', 'e', 'x', 't'] => some .text
  | _ => none

/-- The length of an epoch, at least one nanosecond. -/
def epochOf? (value : List Char) : Option Nat :=
  (Text.numeral? 10 Text.bound64 value).filter (1 ≤ ·)

def pathOf? (value : List Char) : Option String :=
  if value.isEmpty then none else some (String.ofList value)

/-- The options with one of them set, if it takes the value. -/
def set? (o : Options) (value : List Char) : OptionName → Option Options
  | .config => (pathOf? value).map fun path => { o with config := some path }
  | .trace => (pathOf? value).map fun path => { o with trace := some path }
  | .thermal => (pathOf? value).map fun path => { o with thermal := some path }
  | .output => (pathOf? value).map fun path => { o with output := some path }
  | .log => some { o with log := some (String.ofList value) }
  | .epochNs => (epochOf? value).map fun n => { o with epochNs := n }
  | .format => (formatOf? value).map fun f => { o with format := f }
  | .printConfig => none

def set (o : Options) (name : OptionName) (value : List Char) : Except UsageFault Options :=
  match o.set? value name with
  | some o => .ok o
  | none => .error (.valueRefused name (String.ofList value))

/-- Reads arguments; `seen` holds the options read before. -/
def read : List (List Char) → List OptionName → Options → Except UsageFault Options
  | [], _, o => .ok o
  | argument :: arguments, seen, o =>
      match OptionName.ofArgument? argument with
      | none => .error (.unknownArgument (String.ofList argument))
      | some (name, value?) =>
          if seen.contains name then .error (.repeated name)
          else
            match value?, arguments with
            | some value, arguments => do read arguments (name :: seen) (← o.set name value)
            | none, arguments =>
                if name.takesValue then
                  match arguments with
                  | [] => .error (.valueMissing name)
                  | value :: arguments => do
                      if isOption value then .error (.valueMissing name)
                      read arguments (name :: seen) (← o.set name value)
                else read arguments (name :: seen) { o with printConfig := true }

/-- The options of a command line. -/
def ofArguments (arguments : List String) : Except UsageFault Options := do
  let o ← read (arguments.map String.toList) [] {}
  if o.trace.isNone && !o.printConfig then .error .traceMissing
  return o

end Options

end StackedCache
