import QuerySieve.Criterion.OfToken
import QuerySieve.Limits
import QuerySieve.LogRecord
import QuerySieve.Policy
import QuerySieve.Text.Percent

/-!
# Reading queries

* `Sieve`: a policy, a normalizer and limits.
* `Sieve.readFragment`: the criterion of one fragment, or why there is none.
* **`Sieve.read`**, **`Sieve.readEncoded`**: the criteria of a query, with a record of all that was
  left out.
-/

namespace QuerySieve

/-- What a query is read by. -/
structure Sieve where
  policy : Policy := {}
  normalize : Normalizer := FieldName.snakeCase
  limits : Limits := {}

/-- The criteria of a query, and the records of what was left out. -/
structure Reading where
  criteria : List Criterion := []
  records : List LogRecord := []
  deriving DecidableEq, Repr

/-- The fragments of a query. -/
def fragments (query : String) : List String :=
  Text.splitOn '&' query

namespace Sieve

/-- What a token is judged by. -/
def gate (s : Sieve) : Gate where
  normalize := s.normalize
  authorizes := s.policy.authorizes
  maxListValues := some s.limits.listValues

/-- The criterion of a fragment, or why there is none. -/
def readFragment (s : Sieve) (fragment : String) : Except Refusal Criterion :=
  match tokenize fragment with
  | none => .error .malformed
  | some t => Criterion.ofToken s.gate { t with key := s.normalize t.key }

/-- The record of a fragment that was left out. -/
def dropRecord (fragment : String) (r : Refusal) : LogRecord where
  level := "debug"
  message := "fragment dropped"
  fields := [("fragment", fragment), ("reason", r.reason)]

/-- The record of a query with too many fragments. -/
def overflowRecord (max : Nat) : LogRecord where
  level := "warn"
  message := "fragment limit reached, ignoring the rest"
  fields := [("max", max.repr)]

/-- The record of a query that could not be decoded. -/
def ignoredRecord (e : Text.DecodeError) : LogRecord where
  level := "warn"
  message := "query string ignored"
  fields := [("error", e.message)]

/-- What one fragment adds to a reading. -/
def fragmentReading (s : Sieve) (fragment : String) : Reading :=
  match s.readFragment fragment with
  | .ok c => { criteria := [c] }
  | .error r => { records := [dropRecord fragment r] }

/-- The reading of a list of fragments, of which the first ones up to the limit are looked at. -/
def readFragments (s : Sieve) (fs : List String) : Reading :=
  let readings := (fs.take s.limits.fragments).map s.fragmentReading
  { criteria := readings.flatMap (·.criteria)
    records := readings.flatMap (·.records) ++
      if s.limits.fragments < fs.length then [overflowRecord s.limits.fragments] else [] }

/-- The reading of a decoded query. -/
def read (s : Sieve) (query : String) : Reading :=
  if query = "" then {} else s.readFragments (fragments query)

/-- The reading of an encoded query, if there is one; it is decoded as a whole. -/
def readEncoded (s : Sieve) : Option String → Reading
  | none => {}
  | some raw =>
    match Text.urlDecode raw s.limits.queryBytes with
    | .ok query => s.read query
    | .error e => { records := [ignoredRecord e] }

end Sieve

end QuerySieve
