import QuerySieve.Json.Codec
import QuerySieve.Toml.Document

/-!
# Policy files

* `PolicyFile`: a policy, and limits if the file sets any.
* **`PolicyFile.read`**: the policy file of a TOML text with the tables `fields` and `limits`.
-/

namespace QuerySieve

open Json (Value)

/-- A policy, and limits if there are any. -/
structure PolicyFile where
  policy : Policy := {}
  limits : Option Limits := none
  deriving DecidableEq, Repr

namespace PolicyFile

/-- Why a text is no policy file. -/
inductive Fault where
  | malformed
  deriving DecidableEq, Repr

/-- The wording of a fault. -/
def Fault.message : Fault → String
  | malformed => "failed to parse TOML"

/-- A list cut to a length; any other value as it is. -/
def cutItems (n : Nat) : Value → Value
  | .arr items => .arr (items.take n)
  | v => v

/-- The policy file of a document. Where a table is written as a list of its parts, more of them
than it has are left out. -/
def ofValue? (v : Value) : Option PolicyFile := do
  match ← Json.closedPartsOf? ["fields", "limits"] v with
  | [fields, limits] =>
    let policy ← Json.partOr {} (fun v => Policy.ofJson? (cutItems 2 v)) fields
    let limits ← Json.partOr none (fun v => (Limits.ofJson? (cutItems 3 v)).map some) limits
    return { policy, limits }
  | _ => none

/-- The policy file of a text. -/
def read (text : String) : Except Fault PolicyFile :=
  match (Toml.read? text).bind ofValue? with
  | some file => .ok file
  | none => .error .malformed

/-- The limits of the file, or else those of the environment. -/
def limitsOr (file : PolicyFile) (environment : Limits) : Limits :=
  file.limits.getD environment

end PolicyFile

end QuerySieve
