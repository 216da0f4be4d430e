import CaldavMcp.Program.Basic
import CaldavMcp.Program.Pool
import CaldavMcp.Db.Models
import CaldavMcp.Db.Schema
import CaldavMcp.Db.Exec
import CaldavMcp.Db.Calendars
import CaldavMcp.Db.Events
import CaldavMcp.Db.Shares
import CaldavMcp.Db.Users
import CaldavMcp.Ical
import CaldavMcp.Components
import CaldavMcp.Caldav.Properties
import CaldavMcp.Caldav.Handlers
import CaldavMcp.Caldav.Router
import CaldavMcp.Db.Writes
import CaldavMcp.Db.Effects
import CaldavMcp.Db.Atomicity
import CaldavMcp.ChangeLog
import CaldavMcp.Db.Phases
import CaldavMcp.Concurrent.Log
import CaldavMcp.Concurrent.Ctag
import CaldavMcp.Concurrent.Requests
import CaldavMcp.Concurrent.IfMatch
import CaldavMcp.Concurrent.Etag
import CaldavMcp.Db.Runs
import CaldavMcp.Db.History
import CaldavMcp.Caldav.Sync
import CaldavMcp.Db.Accounts
import CaldavMcp.Db.Tokens
import CaldavMcp.Db.Access
import CaldavMcp.Db.Grants
import CaldavMcp.Caldav.Users
import CaldavMcp.Caldav.Outcomes
import CaldavMcp.Caldav.Permissions
import CaldavMcp.Caldav.Credentials
import CaldavMcp.Caldav.Failures
import CaldavMcp.Caldav.Documents
import CaldavMcp.Caldav.Resources
import CaldavMcp.Caldav.EmptyElements
import CaldavMcp.Caldav.Bodies
import CaldavMcp.Caldav.Paths
import CaldavMcp.Caldav.Hrefs
import CaldavMcp.Markup.Reader
import CaldavMcp.Markup.Writer
import CaldavMcp.Caldav.Meaning
import CaldavMcp.Caldav.Faithful
import CaldavMcp.Mcp.Tools
import CaldavMcp.Mcp.Transport
import CaldavMcp.Mcp.Runs
import CaldavMcp.Mcp.Sessions
import CaldavMcp.Concurrent.Proppatch
import CaldavMcp.Caldav.Homes
import CaldavMcp.Mcp.Outcomes
import CaldavMcp.Ctags
import CaldavMcp.Mcp.SimpleMode
import CaldavMcp.Caldav.Buffering
import CaldavMcp.Caldav.Multiget
import CaldavMcp.Caldav.Namespaces
import CaldavMcp.Caldav.Partition
import CaldavMcp.Caldav.Preconditions
import CaldavMcp.Caldav.PropertyUpdate
import CaldavMcp.Caldav.TimeRange
import CaldavMcp.Caldav.PercentDecoding
import CaldavMcp.Caldav.CalendarViews
import CaldavMcp.Timezones
import CaldavMcp.Caldav.Extensions
import CaldavMcp.Caldav.Panics
import CaldavMcp.Db.SharedCalendars
import CaldavMcp.Mcp.EventTexts
import CaldavMcp.Mcp.Columns
import CaldavMcp.Program.Justified
import CaldavMcp.Program.Observers
import CaldavMcp.Caldav.Mediation
import CaldavMcp.Db.Versions
import CaldavMcp.Mcp.Statements
import CaldavMcp.Server
import CaldavMcp.Concurrent.Readers
import CaldavMcp.Concurrent.Versions
import CaldavMcp.Program.Linearization
import CaldavMcp.Store
import CaldavMcp.Db.Actions
import CaldavMcp.Asks
import CaldavMcp.Mcp.Asks
import CaldavMcp.Concurrent.Linear
import CaldavMcp.Db.Agreement
import CaldavMcp.Caldav.Isolation
import CaldavMcp.Mcp.Mediation
import CaldavMcp.Mcp.Isolation
import CaldavMcp.Program.Settled
