import SqlTidy.Failure
import SqlTidy.Http.Service
import SqlTidy.Http.Start
import SqlTidy.Main
import SqlTidy.Proofs.Cache.Inclusion
import SqlTidy.Proofs.Http.Advice
import SqlTidy.Proofs.Http.Exchange
import SqlTidy.Proofs.RateLimit.Cleanup
import SqlTidy.Proofs.RateLimit.FreeCalls
import SqlTidy.Proofs.RateLimit.Generosity
import SqlTidy.Proofs.RateLimit.Occupancy
import SqlTidy.Proofs.Sql.FixedPoints
import SqlTidy.Proofs.Sql.LaterLines
import SqlTidy.Proofs.Sql.Quoting
import SqlTidy.Proofs.Sql.Shape
import SqlTidy.Proofs.Sql.TrailingBlanks
import SqlTidy.Proofs.Sql.Unwrapping
import SqlTidy.Settings.Load
import SqlTidy.Proofs.Settings.Durations
import SqlTidy.Proofs.Http.Identifiers
import SqlTidy.Proofs.Http.Record
import SqlTidy.Proofs.Failure.Wrapping
import SqlTidy.Proofs.Settings.Stability
import SqlTidy.Proofs.Cli.Output
