import ArrowheadCore.Lib.Feed
import ArrowheadCore.Lib.CString
import ArrowheadCore.Lib.Trace
import ArrowheadCore.Lib.Groups
import ArrowheadCore.Lib.OrdMap
import ArrowheadCore.Lib.Joins
import ArrowheadCore.Lib.Traverse
import ArrowheadCore.Lib.Resumption
import ArrowheadCore.Lib.Windows
import ArrowheadCore.Lib.Sql.Lexer
import ArrowheadCore.Lib.Sql.Parser
import ArrowheadCore.Lib.Sql.Engine
import ArrowheadCore.Http.Request
import ArrowheadCore.Http.RequestParser
import ArrowheadCore.Http.Consume
import ArrowheadCore.Http.Protocol
import ArrowheadCore.Http.Numbers
import ArrowheadCore.Http.Reset
import ArrowheadCore.Http.Message
import ArrowheadCore.Http.Reading
import ArrowheadCore.Http.RoundTrip
import ArrowheadCore.Http.Acceptance
import ArrowheadCore.Http.Servlet
import ArrowheadCore.Http.Stream
import ArrowheadCore.Http.Pipeline
import ArrowheadCore.Http.Certificate
import ArrowheadCore.Http.Workers
import ArrowheadCore.Http.CoreQueryStr
import ArrowheadCore.Http.Paged
import ArrowheadCore.Utils.ParseOpt
import ArrowheadCore.Utils.OptionStrings
import ArrowheadCore.Utils.IniFile
import ArrowheadCore.Utils.Lines
import ArrowheadCore.Db.Pool
import ArrowheadCore.Db.Session
import ArrowheadCore.Db.Escape
import ArrowheadCore.Db.Program
import ArrowheadCore.Authorization.Rules
import ArrowheadCore.Json.Gason
import ArrowheadCore.Json.JsonBuilder
import ArrowheadCore.Json.CommonJsonBuilder
import ArrowheadCore.Json.JsonView
import ArrowheadCore.Authorization.IntraCloudCheck
import ArrowheadCore.ServiceRegistry.Entry
import ArrowheadCore.ServiceRegistry.Register
import ArrowheadCore.ServiceRegistry.Store
import ArrowheadCore.ServiceRegistry.Query
import ArrowheadCore.ServiceRegistry.Consistency
import ArrowheadCore.ServiceRegistry.Registration
import ArrowheadCore.ServiceRegistry.Interfaces
import ArrowheadCore.ServiceRegistry.Separation
import ArrowheadCore.ServiceRegistry.Unregister
import ArrowheadCore.ServiceRegistry.Outcomes
import ArrowheadCore.ServiceRegistry.Removal
import ArrowheadCore.ServiceRegistry.Undo
import ArrowheadCore.ServiceRegistry.QueryForm
import ArrowheadCore.ServiceRegistry.Completeness
import ArrowheadCore.Orchestrator.Orchestration
import ArrowheadCore.Orchestrator.Grants
import ArrowheadCore.Json.Reads
import ArrowheadCore.Json.Converted
import ArrowheadCore.Authorization.Parsers
import ArrowheadCore.Orchestrator.Requests
import ArrowheadCore.Json.Cursor
import ArrowheadCore.ServiceRegistry.Metadata
import ArrowheadCore.ServiceRegistry.MgmtGet
import ArrowheadCore.ServiceRegistry.Paging
import ArrowheadCore.Json.Derived
import ArrowheadCore.Json.Acceptance
import ArrowheadCore.Json.Comments
import ArrowheadCore.Json.Strip
import ArrowheadCore.Json.Dump
import ArrowheadCore.Json.JsonCView
import ArrowheadCore.Json.InPlace
import ArrowheadCore.Json.NoThrow
import ArrowheadCore.Json.Script
import ArrowheadCore.Json.Emission
import ArrowheadCore.Json.GroupBy
import ArrowheadCore.Json.Literals
import ArrowheadCore.Json.Reserialised
import ArrowheadCore.Authorization.InterCloudCheck
import ArrowheadCore.Authorization.Relays
import ArrowheadCore.Authorization.Ids
import ArrowheadCore.Json.Escaping
import ArrowheadCore.Json.Names
import ArrowheadCore.Json.Unicode
import ArrowheadCore.Orchestrator.Matchmaking
import ArrowheadCore.ServiceRegistry.Filtering
import ArrowheadCore.ServiceRegistry.Shown
import ArrowheadCore.ServiceRegistry.Sorting
import ArrowheadCore.ServiceRegistry.Listing
import ArrowheadCore.ServiceRegistry.Grouped
import ArrowheadCore.Lib.Sql.Balance
import ArrowheadCore.Orchestrator.RequestForm
import ArrowheadCore.Authorization.CheckRequests
import ArrowheadCore.Authorization.Statements
import ArrowheadCore.Authorization.Tokens
import ArrowheadCore.Json.Alike
import ArrowheadCore.Json.Boundaries
import ArrowheadCore.Db.Row
import ArrowheadCore.Http.WGCurl
import ArrowheadCore.DevRegistry.Metadata
import ArrowheadCore.DevRegistry.Rendering
import ArrowheadCore.DevRegistry.Query
import ArrowheadCore.Http.Pointers
import ArrowheadCore.Utils.Pointers
import ArrowheadCore.Json.Accesses
import ArrowheadCore.Json.Overread
import ArrowheadCore.Lib.Ring
import ArrowheadCore.Json.JsonParse
import ArrowheadCore.Json.Machine
import ArrowheadCore.Json.Represents
import ArrowheadCore.Json.Simulation
import ArrowheadCore.Json.Lenient
import ArrowheadCore.Json.Accepts
import ArrowheadCore.Json.Nodes
import ArrowheadCore.Json.JsonAllocator
import ArrowheadCore.Authorization.Ledger
