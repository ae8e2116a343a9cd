import IplReport.Snapshot.Render
import IplReport.Text.Numeral

/-!
# Command-line arguments

A command line names one dump file and may hold options, before or after it.  The value of an
option is looked at only when the next thing comes up, so that of several faults an unknown
argument may win over a bad value before it.
-/

namespace IplReport.Command

/-! ## Section 1: What a command line may hold -/

/-- What takes a value. -/
inductive Parameter where
  /-- The address of the first byte of the dump. -/
  | base
  /-- The address of the prefixed save area. -/
  | root
  | config
  | format
  /-- The dump file, which is the only one without a name before it. -/
  | dump
  deriving DecidableEq, Repr

def Parameter.usage : Parameter → String
  | base => "--base <BASE>"
  | root => "--root <ROOT>"
  | config => "--config <CONFIG>"
  | format => "--format <FORMAT>"
  | dump => "<DUMP>"

/-- What takes no value. -/
inductive Flag where
  | verbose
  | help
  deriving DecidableEq, Repr

def Flag.usage : Flag → String
  | verbose => "--verbose"
  | help => "--help"

def longNames : List (String × (Parameter ⊕ Flag)) := [
  ("base", .inl .base), ("root", .inl .root), ("config", .inl .config), ("format", .inl .format),
  ("verbose", .inr .verbose), ("help", .inr .help)]

def shortNames : List (Char × (Parameter ⊕ Flag)) := [
  ('c', .inl .config), ('v', .inr .verbose), ('h', .inr .help)]

/-! ## Section 2: Faults -/

/-- What is wrong with a command line. -/
inductive UsageError where
  /-- There is no such option, or there is a second dump file. -/
  | unexpectedArgument (argument : String)
  | unexpectedValue (value : String) (flag : Flag)
  /-- A value is missing or empty. -/
  | valueRequired (parameter : Parameter)
  | repeated (option : Parameter ⊕ Flag)
  | invalidAddress (parameter : Parameter) (value : String) (reason : NumeralError)
  | invalidFormat (value : String)
  | dumpRequired
  deriving DecidableEq, Repr

def UsageError.message : UsageError → String
  | unexpectedArgument argument => s!"unexpected argument '{argument}' found"
  | unexpectedValue value flag =>
    s!"unexpected value '{value}' for '{flag.usage}' found; no more were expected"
  | valueRequired parameter =>
    s!"a value is required for '{parameter.usage}' but none was supplied"
  | repeated (.inl parameter) =>
    s!"the argument '{parameter.usage}' cannot be used multiple times"
  | repeated (.inr flag) => s!"the argument '{flag.usage}' cannot be used multiple times"
  | invalidAddress parameter value reason =>
    s!"invalid value '{value}' for '{parameter.usage}': "
      ++ s!"invalid address '{value}': {reason.message}"
  | invalidFormat value => s!"invalid value '{value}' for '{Parameter.format.usage}'"
  | dumpRequired => "the following required arguments were not provided:"

/-- Why a command line asks for no report. -/
inductive Stop where
  | help
  | misuse (fault : UsageError)
  deriving DecidableEq, Repr

/-! ## Section 3: Values -/

/-- The values that have been accepted so far. -/
structure Draft where
  base : Option UInt64 := none
  root : Option UInt64 := none
  config : Option String := none
  format : Option OutputFormat := none
  dump : Option String := none
  verbose : Bool := false

namespace Draft

def has (d : Draft) : Parameter → Bool
  | .base => d.base.isSome
  | .root => d.root.isSome
  | .config => d.config.isSome
  | .format => d.format.isSome
  | .dump => d.dump.isSome

def address (parameter : Parameter) (value : String) : Except Stop UInt64 :=
  (readAddress value).mapError fun reason => .misuse (.invalidAddress parameter value reason)

def path (parameter : Parameter) (value : String) : Except Stop String :=
  if value.isEmpty then .error (.misuse (.valueRequired parameter)) else .ok value

def formatOf (value : String) : Except Stop OutputFormat :=
  if value.isEmpty then
    .error (.misuse (.valueRequired .format))
  else
    match OutputFormat.ofName? value with
    | some format => .ok format
    | none => .error (.misuse (.invalidFormat value))

def assign (d : Draft) (parameter : Parameter) (value : String) : Except Stop Draft :=
  if d.has parameter then
    .error (.misuse (.repeated (.inl parameter)))
  else
    match parameter with
    | .base => do return { d with base := ← address .base value }
    | .root => do return { d with root := ← address .root value }
    | .config => do return { d with config := ← path .config value }
    | .format => do return { d with format := ← formatOf value }
    | .dump => do return { d with dump := ← path .dump value }

end Draft

/-! ## Section 4: Going through the arguments -/

/-- A parameter that has come up, and its value once that has come up too. -/
structure Pending where
  parameter : Parameter
  value : Option String

/-- How far the arguments have been read. -/
structure Progress where
  draft : Draft := {}
  /-- The parameter that is still to be dealt with. -/
  pending : Option Pending := none
  dumpSeen : Bool := false

namespace Progress

/-- Deals with the parameter that is pending. -/
def settle (p : Progress) : Except Stop Progress :=
  match p.pending with
  | none => .ok p
  | some ⟨parameter, none⟩ => .error (.misuse (.valueRequired parameter))
  | some ⟨parameter, some value⟩ => do
    return { p with draft := ← p.draft.assign parameter value, pending := none }

/-- Takes up an option that needs a value; an attached one is dealt with at once. -/
def takeParameter (p : Progress) (parameter : Parameter) (attached : Option String) :
    Except Stop Progress := do
  let p ← p.settle
  match attached with
  | none => return { p with pending := some ⟨parameter, none⟩ }
  | some value => return { p with draft := ← p.draft.assign parameter value }

def takeFlag (p : Progress) (flag : Flag) : Except Stop Progress := do
  let p ← p.settle
  match flag with
  | .help => throw .help
  | .verbose =>
    if p.draft.verbose then throw (.misuse (.repeated (.inr .verbose)))
    else return { p with draft := { p.draft with verbose := true } }

def takeLong (p : Progress) (name : String) (attached : Option String) : Except Stop Progress :=
  match longNames.lookup name with
  | none => .error (.misuse (.unexpectedArgument ("--" ++ name)))
  | some (.inl parameter) => p.takeParameter parameter attached
  | some (.inr flag) =>
    match attached with
    | some value => .error (.misuse (.unexpectedValue value flag))
    | none => p.takeFlag flag

/-- Takes up options that are given by their short names.  The value of one that needs a value
may follow at once or after an equals sign. -/
def takeShort (p : Progress) : List Char → Except Stop Progress
  | [] => .ok p
  | c :: rest =>
    match shortNames.lookup c with
    | none => .error (.misuse (.unexpectedArgument (String.ofList ['-', c])))
    | some (.inr flag) => do (← p.takeFlag flag).takeShort rest
    | some (.inl parameter) =>
      match rest with
      | [] => p.takeParameter parameter none
      | '=' :: value => p.takeParameter parameter (some (String.ofList value))
      | value => p.takeParameter parameter (some (String.ofList value))

def takeDump (p : Progress) (argument : String) : Except Stop Progress :=
  if p.dumpSeen then
    .error (.misuse (.unexpectedArgument argument))
  else do
    let p ← p.settle
    return { p with pending := some ⟨.dump, some argument⟩, dumpSeen := true }

/-- Takes up an argument that is no option: the value that is waited for, or the dump file. -/
def takePlain (p : Progress) (argument : String) : Except Stop Progress :=
  match p.pending with
  | some ⟨parameter, none⟩ => .ok { p with pending := some ⟨parameter, some argument⟩ }
  | _ => p.takeDump argument

/-- The name in a long option, and the value that is attached to it. -/
def splitLong (cs : List Char) : String × Option String :=
  let name := String.ofList (cs.takeWhile (· != '='))
  match cs.dropWhile (· != '=') with
  | _ :: value => (name, some (String.ofList value))
  | [] => (name, none)

/-- Takes up an argument that may be an option. -/
def take (p : Progress) (argument : String) : Except Stop Progress :=
  match argument.toList with
  | '-' :: '-' :: long =>
    let (name, attached) := splitLong long
    p.takeLong name attached
  | ['-'] => p.takePlain argument
  | '-' :: short => p.takeShort short
  | _ => p.takePlain argument

/-- Takes up all arguments.  After two hyphens alone none of them is an option or the value of
one. -/
def takeAll (p : Progress) : List String → Except Stop Progress
  | [] => p.settle
  | argument :: rest => do
    if argument == "--" then
      (← rest.foldlM takeDump p).settle
    else
      (← p.take argument).takeAll rest

end Progress

/-! ## Section 5: Invocations -/

/-- What a command line asks for. -/
structure Invocation where
  dump : String
  base : UInt64
  /-- The address of the prefixed save area, if it is not to come from the settings. -/
  root : Option UInt64
  config : Option String
  format : OutputFormat
  deriving DecidableEq, Repr

def Invocation.ofArguments (arguments : List String) : Except Stop Invocation := do
  let d := (← Progress.takeAll {} arguments).draft
  match d.dump with
  | none => throw (.misuse .dumpRequired)
  | some dump => return ⟨dump, d.base.getD 0, d.root, d.config, d.format.getD .text⟩

end IplReport.Command
