import QuerySieve.CommandLine.Arguments
import QuerySieve.Json.Writer
import QuerySieve.PolicyFile
import QuerySieve.Sieve
import QuerySieve.Sql.Select

/-!
# The program

* `mergedPolicy`: the policy of a file, extended by the command line.
* `execute`: the output of a run, or what stops it, with the records that are written.
* **`respond`**: the whole program as a function of its arguments, the files and the environment.
-/

namespace QuerySieve.CommandLine

/-- The policy of a file, extended by the command line. Empty entries count for nothing. -/
def mergedPolicy (o : Options) (p : Policy) : Policy :=
  let p := if o.all then p.allowAll else p
  let p := (o.allow.filter (· ≠ "")).foldl Policy.allow p
  (o.hide.filter (· ≠ "")).foldl Policy.hide p

/-- What a run reads its query by. -/
def sieveOf (o : Options) (file : PolicyFile) (environment : Limits) : Sieve where
  policy := mergedPolicy o file.policy
  normalize := o.spelling.normalizer
  limits := file.limitsOr environment

/-- Read the query of a run. -/
def readQuery (o : Options) (s : Sieve) : Reading :=
  if o.encoded then s.readEncoded (some o.query) else s.read o.query

/-- What stops a run. -/
inductive RunError where
  | unreadableFile (path : String)
  | invalidFile (path : String)
  | invalidTable (name : String)
  /-- A query cannot be started, and the program panics. -/
  | panic (e : Sql.InvalidName)
  deriving DecidableEq, Repr

/-- The wording of an error. -/
def RunError.message : RunError → String
  | unreadableFile path => "failed to read policy file " ++ path
  | invalidFile path => "invalid policy file " ++ path
  | invalidTable name => "invalid table name '" ++ name ++ "'"
  | panic e => e.message

/-- The exit code of an error. -/
def RunError.exitCode : RunError → Nat
  | panic _ => 101
  | _ => 1

/-- A statement on its own line, and its parameters as a comment on the next one. -/
def statementText (s : Sql.Statement) : String :=
  s.sql ++ "\n-- params: " ++ (Sql.Param.listToJson s.params).compact

/-- The output of a run and the records written for it, from the criteria of its query. A table that
is no identifier is refused before a query is started, which would panic. -/
def render (o : Options) (cs : List Criterion) : Except RunError String × List LogRecord :=
  match o.format with
  | .json => (.ok (Criterion.listToJson cs).pretty, [])
  | .sql =>
    if !Sql.isIdentifier o.table then (.error (.invalidTable o.table), [])
    else
      match Sql.Select.start o.dialect o.table with
      | .error e => (.error (.panic e), [])
      | .ok q =>
        let draft := applyAll ({ query := q } : Sql.Draft) cs
        (.ok (statementText draft.query.statement), draft.records)

/-- The output of a run, or what stops it, and the records that are written. -/
def execute (o : Options) (file : PolicyFile) (environment : Limits) :
    Except RunError String × List LogRecord :=
  let reading := readQuery o (sieveOf o file environment)
  let (output, records) := render o reading.criteria
  (output, LogRecord.emitted (!o.quiet) (reading.records ++ records))

/-- The policy file that a run asks for; `file` gives the text of a path, if it can be read. -/
def policyFileOf (o : Options) (file : String → Option String) : Except RunError PolicyFile :=
  match o.config with
  | none => .ok {}
  | some path =>
    match file path with
    | none => .error (.unreadableFile path)
    | some text =>
      match PolicyFile.read text with
      | .ok f => .ok f
      | .error _ => .error (.invalidFile path)

/-- What the program answers. -/
inductive Response where
  /-- It prints a text. -/
  | printed (text : String) (records : List LogRecord)
  /-- It stops with an error. -/
  | failed (e : RunError) (records : List LogRecord)
  /-- It refuses its arguments. -/
  | refused (f : Fault)
  deriving DecidableEq, Repr

/-- The exit code of an answer. -/
def Response.exitCode : Response → Nat
  | printed _ _ => 0
  | failed e _ => e.exitCode
  | refused _ => 2

/-- The program's name and version. -/
def versionText : String := "queryable 0.1.0"

/-- The answer to options that are in order. -/
def run (o : Options) (file env : String → Option String) : Response :=
  match policyFileOf o file with
  | .error e => .failed e []
  | .ok f =>
    match execute o f (Limits.ofEnvironment env) with
    | (.ok text, records) => .printed text records
    | (.error e, records) => .failed e records

/-- The answer to a list of arguments; `file` gives the text of a path and `env` the value of a
name in the environment. -/
def respond (arguments : List String) (file env : String → Option String) : Response :=
  match Options.read arguments with
  | .error .version => .printed versionText []
  | .error (.fault f) => .refused f
  | .ok o => run o file env

end QuerySieve.CommandLine
