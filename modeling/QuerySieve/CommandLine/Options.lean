import QuerySieve.FieldName
import QuerySieve.Sql.Dialect

/-!
# Command line options

* `Options`: what a run is asked to do.
* `Flag`: the options by name, with or without a value.
* `Fault`: what can be wrong with a list of arguments.
-/

namespace QuerySieve.CommandLine

/-- The two forms of output. -/
inductive Format where
  | json
  | sql
  deriving DecidableEq, Repr

/-- The two ways to read a field's spelling. -/
inductive Spelling where
  | snake
  | verbatim
  deriving DecidableEq, Repr

/-- The normalizer of a way to read a spelling. -/
def Spelling.normalizer : Spelling → Normalizer
  | snake => FieldName.snakeCase
  | verbatim => FieldName.verbatim

/-- A form of output by its name. -/
def Format.ofName? : String → Option Format
  | "json" => some .json
  | "sql" => some .sql
  | _ => none

/-- A dialect by its name. -/
def dialectOfName? : String → Option Sql.Dialect
  | "postgres" => some .postgres
  | "sqlite" => some .sqlite
  | _ => none

/-- A way to read a spelling by its name. -/
def Spelling.ofName? : String → Option Spelling
  | "snake" => some .snake
  | "none" => some .verbatim
  | _ => none

/-- What a run is asked to do. -/
structure Options where
  query : String
  config : Option String := none
  allow : List String := []
  all : Bool := false
  hide : List String := []
  encoded : Bool := false
  format : Format := .json
  dialect : Sql.Dialect := .postgres
  table : String := "items"
  spelling : Spelling := .snake
  quiet : Bool := false
  deriving DecidableEq, Repr

/-- The options that take a value. -/
inductive ValueFlag where
  | config
  | allow
  | hide
  | format
  | dialect
  | table
  | spelling
  deriving DecidableEq, Repr

/-- The options that are on when they are given. -/
inductive Switch where
  | all
  | encoded
  | quiet
  deriving DecidableEq, Repr

/-- An option by its name. -/
inductive Flag where
  | value (f : ValueFlag)
  | switch (s : Switch)
  | version
  deriving DecidableEq, Repr

namespace Flag

/-- The option of a long name. -/
def ofLong? : String → Option Flag
  | "config" => some (value .config)
  | "allow" => some (value .allow)
  | "all" => some (switch .all)
  | "hide" => some (value .hide)
  | "encoded" => some (switch .encoded)
  | "format" => some (value .format)
  | "dialect" => some (value .dialect)
  | "table" => some (value .table)
  | "normalize" => some (value .spelling)
  | "quiet" => some (switch .quiet)
  | "version" => some version
  | _ => none

/-- The option of a letter. -/
def ofLetter? : Char → Option Flag
  | 'c' => some (value .config)
  | 'a' => some (value .allow)
  | 'e' => some (switch .encoded)
  | 'f' => some (value .format)
  | 'd' => some (value .dialect)
  | 't' => some (value .table)
  | 'n' => some (value .spelling)
  | 'q' => some (switch .quiet)
  | 'V' => some version
  | _ => none

end Flag

/-- What is wrong with a list of arguments. -/
inductive Fault where
  | unknownOption (argument : String)
  | missingValue (argument : String)
  | unexpectedValue (argument : String)
  | invalidValue (value : String)
  | repeated (argument : String)
  | extraArgument (argument : String)
  | missingQuery
  deriving DecidableEq, Repr

/-- The wording of a fault. -/
def Fault.message : Fault → String
  | unknownOption a => "unexpected argument '" ++ a ++ "' found"
  | missingValue a => "a value is required for '" ++ a ++ "' but none was supplied"
  | unexpectedValue a => "unexpected value for '" ++ a ++ "' found; no more were expected"
  | invalidValue v => "invalid value '" ++ v ++ "'"
  | repeated a => "the argument '" ++ a ++ "' cannot be used multiple times"
  | extraArgument a => "unexpected argument '" ++ a ++ "' found"
  | missingQuery => "the following required arguments were not provided: <QUERY>"

end QuerySieve.CommandLine
