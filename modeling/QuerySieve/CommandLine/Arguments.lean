import QuerySieve.CommandLine.Options
import QuerySieve.Text.Basic

/-!
# Command line arguments

Arguments are read from left to right, and the first thing wrong with them ends the reading.

* `Given`: the options met so far.
* `readArgument`: one argument, which may leave an option waiting for its value.
* **`Options.read`**: the options that a list of arguments gives.
-/

namespace QuerySieve.CommandLine

/-- Why reading ends before the last argument: something is wrong, or the version is asked for. -/
inductive Halt where
  | fault (f : Fault)
  | version
  deriving DecidableEq, Repr

/-- The options met so far. -/
structure Given where
  query : Option String := none
  config : Option String := none
  allow : List String := []
  all : Bool := false
  hide : List String := []
  encoded : Bool := false
  format : Option Format := none
  dialect : Option Sql.Dialect := none
  table : Option String := none
  spelling : Option Spelling := none
  quiet : Bool := false
  deriving DecidableEq, Repr

/-- A value that was not given yet, read by its name. -/
def once {α : Type} (argument : String) (old : Option α) (read : String → Option α)
    (value : String) : Except Halt (Option α) :=
  match read value with
  | none => .error (.fault (.invalidValue value))
  | some a => if old.isSome then .error (.fault (.repeated argument)) else .ok (some a)

/-- A path; it is not empty. -/
def path? (value : String) : Option String :=
  if value = "" then none else some value

namespace Given

/-- Take in an option with its value. Only `--allow` and `--hide` can be given again. -/
def setValue (g : Given) (argument : String) (f : ValueFlag) (value : String) :
    Except Halt Given :=
  match f with
  | .config => (once argument g.config path? value).map fun x => { g with config := x }
  | .allow => .ok { g with allow := g.allow ++ Text.splitOn ',' value }
  | .hide => .ok { g with hide := g.hide ++ Text.splitOn ',' value }
  | .format => (once argument g.format Format.ofName? value).map fun x => { g with format := x }
  | .dialect => (once argument g.dialect dialectOfName? value).map fun x => { g with dialect := x }
  | .table => (once argument g.table some value).map fun x => { g with table := x }
  | .spelling =>
    (once argument g.spelling Spelling.ofName? value).map fun x => { g with spelling := x }

/-- Take in an option without a value. -/
def setSwitch (g : Given) (argument : String) (s : Switch) : Except Halt Given :=
  let again : Except Halt Given := .error (.fault (.repeated argument))
  match s with
  | .all => if g.all then again else .ok { g with all := true }
  | .encoded => if g.encoded then again else .ok { g with encoded := true }
  | .quiet => if g.quiet then again else .ok { g with quiet := true }

/-- Take in an argument that is no option. -/
def setQuery (g : Given) (argument : String) : Except Halt Given :=
  if g.query.isSome then .error (.fault (.extraArgument argument))
  else .ok { g with query := some argument }

end Given

/-- Whether an argument is an option rather than a value; a lone `-` is a value. -/
def looksLikeOption (argument : String) : Bool :=
  match argument.toList with
  | '-' :: _ :: _ => true
  | _ => false

/-- What an argument leaves to be read: nothing, or the value of an option that comes next. -/
structure Step where
  given : Given
  awaits : Option (String × ValueFlag) := none

/-- Read a long option from after its two dashes on. -/
def readLong (g : Given) (argument : String) (cs : List Char) : Except Halt Step :=
  let name := String.ofList (cs.takeWhile (· ≠ '='))
  let attached := match cs.dropWhile (· ≠ '=') with
    | [] => none
    | _ :: value => some (String.ofList value)
  match Flag.ofLong? name, attached with
  | none, _ => .error (.fault (.unknownOption argument))
  | some (.value f), none => .ok { given := g, awaits := some (argument, f) }
  | some (.value f), some value => (g.setValue argument f value).map fun g => { given := g }
  | some _, some _ => .error (.fault (.unexpectedValue argument))
  | some (.switch s), none => (g.setSwitch argument s).map fun g => { given := g }
  | some .version, none => .error .version

/-- Read the letters of a cluster of short options; an option with a value takes the rest, from
after an equals sign if there is one. -/
def readLetters (g : Given) (argument : String) : List Char → Except Halt Step
  | [] => .ok { given := g }
  | c :: cs =>
    match Flag.ofLetter? c with
    | none => .error (.fault (.unknownOption argument))
    | some .version => .error .version
    | some (.switch s) =>
      match g.setSwitch argument s with
      | .ok g => readLetters g argument cs
      | .error e => .error e
    | some (.value f) =>
      match cs with
      | [] => .ok { given := g, awaits := some (argument, f) }
      | '=' :: value => (g.setValue argument f (String.ofList value)).map fun g => { given := g }
      | value => (g.setValue argument f (String.ofList value)).map fun g => { given := g }

/-- Read one argument before `--`. -/
def readArgument (g : Given) (argument : String) : Except Halt Step :=
  match argument.toList with
  | '-' :: '-' :: cs => readLong g argument cs
  | '-' :: c :: cs => readLetters g argument (c :: cs)
  | _ => (g.setQuery argument).map fun g => { given := g }

/-- Read all arguments. Where an option waits for its value, the next argument is that value. -/
def readArguments : Step → List String → Except Halt Given
  | { given, awaits := none }, [] => .ok given
  | { awaits := some (argument, _), .. }, [] => .error (.fault (.missingValue argument))
  | { given, awaits := some (argument, f) }, value :: rest =>
    if looksLikeOption value then .error (.fault (.missingValue argument)) else
    match given.setValue argument f value with
    | .ok given => readArguments { given } rest
    | .error e => .error e
  | { given, awaits := none }, argument :: rest =>
    if argument = "--" then rest.foldlM Given.setQuery given else
    match readArgument given argument with
    | .ok step => readArguments step rest
    | .error e => .error e

/-- The options of a run, the default for each that was not given. -/
def Given.toOptions (g : Given) : Except Halt Options :=
  match g.query with
  | none => .error (.fault .missingQuery)
  | some query =>
    .ok {
      query, config := g.config, allow := g.allow, all := g.all, hide := g.hide
      encoded := g.encoded, format := g.format.getD .json, dialect := g.dialect.getD .postgres
      table := g.table.getD "items", spelling := g.spelling.getD .snake, quiet := g.quiet }

/-- The run that a list of arguments asks for. -/
def Options.read (arguments : List String) : Except Halt Options :=
  match readArguments { given := {} } arguments with
  | .ok g => g.toOptions
  | .error e => .error e

end QuerySieve.CommandLine
