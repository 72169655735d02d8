/-
# The command line

* `Arguments` — what a command line asks for.
* `ArgumentError` — why a command line does not start the service.
* `Arguments.ofList` — reading a command line.

A value may stand in the same argument as its option or in the next one. An option whose value
stands in the next argument is settled only when another option follows, or at the end.
-/
import Quarry.Text.Digits

namespace Quarry.Server

open Quarry.Text

/-! ## Options -/

/-- The options that take a value. -/
inductive ValueOption where
  | config
  | host
  | port
  | db
  deriving DecidableEq, Repr

/-- The options. -/
inductive CommandOption where
  | value (o : ValueOption)
  | help
  | version
  deriving DecidableEq, Repr

/-- The option with a long name. -/
def CommandOption.ofLong? : String → Option CommandOption
  | "config" => some (.value .config)
  | "host" => some (.value .host)
  | "port" => some (.value .port)
  | "db" => some (.value .db)
  | "help" => some .help
  | "version" => some .version
  | _ => none

/-- The option with a short name. -/
def CommandOption.ofShort? : Char → Option CommandOption
  | 'c' => some (.value .config)
  | 'p' => some (.value .port)
  | 'h' => some .help
  | 'V' => some .version
  | _ => none

/-! ## What is asked for -/

/-- What a command line asks for. -/
structure Arguments where
  /-- The file of the configuration. -/
  config : String := "sqlsearch.toml"
  host : Option String := none
  port : Option Nat := none
  db : Option String := none
  deriving DecidableEq, Repr

/-- Why a command line does not start the service. -/
inductive ArgumentError where
  /-- An argument is no option, and the value of none. -/
  | unknown
  /-- An option has no value, or an empty one where there must be something. -/
  | noValue
  /-- A value is not one that its option takes. -/
  | badValue
  /-- An option is given twice. -/
  | repeated
  /-- An option that takes no value is given one. -/
  | surplusValue
  /-- The command line asks for help. -/
  | help
  /-- The command line asks for the version. -/
  | version
  deriving DecidableEq, Repr

namespace Arguments

/-- The greatest port. -/
def greatestPort : Int := 65535

/-- The port that a text gives. -/
def portOf? (s : String) : Option Nat :=
  ((Digits.int64Of? s).filter fun n => 0 ≤ n && n ≤ greatestPort).map Int.toNat

/-- The path that a text gives; there must be something. -/
def pathOf (s : String) : Except ArgumentError String :=
  if s.isEmpty then .error .noValue else .ok s

/-- Sets the value of an option. -/
def set (a : Arguments) (o : ValueOption) (s : String) : Except ArgumentError Arguments :=
  match o with
  | .config => (pathOf s).map fun path => { a with config := path }
  | .host => .ok { a with host := some s }
  | .port =>
    match portOf? s with
    | some port => .ok { a with port := some port }
    | none => .error .badValue
  | .db => (pathOf s).map fun path => { a with db := some path }

end Arguments

/-! ## Reading -/

/-- How far a command line has been read. -/
structure ArgumentReader where
  arguments : Arguments := {}
  /-- The options that are settled. -/
  settled : List ValueOption := []
  /-- The option that is not settled yet, with its value if that has been read. -/
  pending : Option (ValueOption × Option String) := none
  /-- Whether all options are over. -/
  closed : Bool := false

namespace ArgumentReader

/-- Settles an option, which must not have been settled before. -/
def put (r : ArgumentReader) (o : ValueOption) (s : String) :
    Except ArgumentError ArgumentReader :=
  if r.settled.contains o then .error .repeated
  else (r.arguments.set o s).map fun a =>
    { r with arguments := a, settled := o :: r.settled }

/-- Settles the pending option. -/
def settle (r : ArgumentReader) : Except ArgumentError ArgumentReader :=
  let rest := { r with pending := none }
  match r.pending with
  | none => .ok rest
  | some (_, none) => .error .noValue
  | some (o, some s) => rest.put o s

/-- Reads an option with the value in the same argument, if there is one. -/
def option (r : ArgumentReader) (o : CommandOption) (value : Option String) :
    Except ArgumentError ArgumentReader :=
  match o, value with
  | .value o, some s => r.settle.bind fun r => r.put o s
  | .value o, none => r.settle.map fun r => { r with pending := some (o, none) }
  | .help, some _ => .error .surplusValue
  | .version, some _ => .error .surplusValue
  | .help, none => r.settle.bind fun _ => .error .help
  | .version, none => r.settle.bind fun _ => .error .version

/-- Reads an option by its long name, after the two hyphens. -/
def long (r : ArgumentReader) (cs : List Char) : Except ArgumentError ArgumentReader :=
  let name := cs.takeWhile (· != '=')
  match CommandOption.ofLong? (String.ofList name), cs.drop name.length with
  | some o, [] => r.option o none
  | some o, _ :: value => r.option o (some (String.ofList value))
  | none, _ => .error .unknown

/-- Reads an option by its short name, after the hyphen. Its value may follow at once, or after an
equals sign. -/
def short (r : ArgumentReader) (c : Char) (cs : List Char) : Except ArgumentError ArgumentReader :=
  match CommandOption.ofShort? c, cs with
  | some (.value o), '=' :: value => r.option (.value o) (some (String.ofList value))
  | some (.value o), [] => r.option (.value o) none
  | some (.value o), value => r.option (.value o) (some (String.ofList value))
  | some o, _ => r.option o none
  | none, _ => .error .unknown

/-- Reads an argument that is no option. -/
def plain (r : ArgumentReader) (s : String) : Except ArgumentError ArgumentReader :=
  match r.pending with
  | some (o, none) => .ok { r with pending := some (o, some s) }
  | _ => .error .unknown

/-- Reads an argument. -/
def step (r : ArgumentReader) (s : String) : Except ArgumentError ArgumentReader :=
  if r.closed then .error .unknown
  else match s.toList with
    | ['-', '-'] => .ok { r with closed := true }
    | '-' :: '-' :: cs => r.long cs
    | '-' :: c :: cs => r.short c cs
    | _ => r.plain s

/-- Reads arguments, and settles what is left. -/
def run (r : ArgumentReader) : List String → Except ArgumentError Arguments
  | [] => r.settle.map arguments
  | s :: rest => (r.step s).bind fun r => run r rest

end ArgumentReader

/-- Reads a command line. -/
def Arguments.ofList (args : List String) : Except ArgumentError Arguments :=
  ArgumentReader.run {} args

end Quarry.Server
