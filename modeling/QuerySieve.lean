import QuerySieve.Backend.Recorder
import QuerySieve.CommandLine.Program
import QuerySieve.Json.Reader
import QuerySieve.Main
import QuerySieve.Proofs.Authorization
import QuerySieve.Proofs.RoundTrip
import QuerySieve.Proofs.Sql.Placeholders
import QuerySieve.Proofs.Sql.Readability
import QuerySieve.Proofs.Policy.Codec
import QuerySieve.Proofs.UrlEncoding
import QuerySieve.Proofs.FieldName
import QuerySieve.Proofs.Sql.Words
import QuerySieve.Proofs.Sql.FieldNames
import QuerySieve.Proofs.Fragments
import QuerySieve.Proofs.EncodedPieces
import QuerySieve.Proofs.Records
import QuerySieve.Proofs.Text.Percent
import QuerySieve.Proofs.Sql.Agreement
import QuerySieve.Proofs.Recorder
import QuerySieve.Proofs.Sql.Interleaving
import QuerySieve.Proofs.DecodedSize
import QuerySieve.Proofs.Sql.Bounds
import QuerySieve.Proofs.Grammar
import QuerySieve.Proofs.Asking
import QuerySieve.Proofs.Wildcard
import QuerySieve.Proofs.Spelling
import QuerySieve.Proofs.SpelledFragments
import QuerySieve.Proofs.Sql.Skipping
import QuerySieve.Proofs.LogLine
import QuerySieve.Proofs.CommandLine.Output
import QuerySieve.Proofs.CommandLine.Policy
import QuerySieve.Proofs.Text.EscapeCount
import QuerySieve.Proofs.SnakeCase
import QuerySieve.Proofs.Pieces
import QuerySieve.Proofs.Limits
