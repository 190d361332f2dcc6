import Sqlite3Ruby.Lib.StepSystem
import Sqlite3Ruby.SharedDatabase
import Sqlite3Ruby.ThreadLocks
import Sqlite3Ruby.Function
import Sqlite3Ruby.Binding
import Sqlite3Ruby.Aggregator.Registry
import Sqlite3Ruby.Callback
import Sqlite3Ruby.Fork.Safety
import Sqlite3Ruby.Registration
import Sqlite3Ruby.TransactionExit
import Sqlite3Ruby.Overload
import Sqlite3Ruby.StatementTimeout
import Sqlite3Ruby.DoneFlag
import Sqlite3Ruby.Release
import Sqlite3Ruby.Guards
import Sqlite3Ruby.Collection
import Sqlite3Ruby.Fork.Ownership
import Sqlite3Ruby.Errinfo
import Sqlite3Ruby.Filename
import Sqlite3Ruby.Aggregator.Template
import Sqlite3Ruby.BatchVars
import Sqlite3Ruby.Bignum
import Sqlite3Ruby.NamedParams
import Sqlite3Ruby.Encoders
import Sqlite3Ruby.Decoders
import Sqlite3Ruby.Lengths
import Sqlite3Ruby.BatchText
import Sqlite3Ruby.BatchErrors
import Sqlite3Ruby.Metadata
import Sqlite3Ruby.FirstValue
import Sqlite3Ruby.EachLoops
import Sqlite3Ruby.TableInfo
import Sqlite3Ruby.Quoting
import Sqlite3Ruby.ErrorMessage
import Sqlite3Ruby.OpenMode
import Sqlite3Ruby.CallerFilename
import Sqlite3Ruby.PragmaSetters
import Sqlite3Ruby.Discard
import Sqlite3Ruby.Reopening
import Sqlite3Ruby.Ruby.Cursor
import Sqlite3Ruby.ResultSetRows
import Sqlite3Ruby.TransactionBlocks
import Sqlite3Ruby.BusyTimeout
import Sqlite3Ruby.Dispatch
import Sqlite3Ruby.Aggregator.Proxies
import Sqlite3Ruby.CopiedRows
import Sqlite3Ruby.PragmaStatements
import Sqlite3Ruby.PartialBinding
import Sqlite3Ruby.Fork.Warnings
