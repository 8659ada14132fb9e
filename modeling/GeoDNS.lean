import GeoDNS.Lib.Res
import GeoDNS.Lib.Recursion
import GeoDNS.Lib.Run
import GeoDNS.Lib.Float64
import GeoDNS.Lib.Strings
import GeoDNS.Lib.Decimal
import GeoDNS.Lib.IP
import GeoDNS.Lib.GoMap
import GeoDNS.Lib.Json
import GeoDNS.Lib.RawJson
import GeoDNS.Lib.Int64
import GeoDNS.Lib.Draw
import GeoDNS.Lib.ExactDraw
import GeoDNS.Lib.MachineDraw
import GeoDNS.Lib.Nearest
import GeoDNS.Lib.Letters
import GeoDNS.Lib.Agree
import GeoDNS.Lib.Window
import GeoDNS.Typeutil
import GeoDNS.Dns.Name
import GeoDNS.Dns.Msg
import GeoDNS.Dns.ServeMux
import GeoDNS.Dns.Labels
import GeoDNS.Health.Status
import GeoDNS.Health.Registry
import GeoDNS.Health.Shared
import GeoDNS.Health.Lookup
import GeoDNS.Health.Decode
import GeoDNS.Healthtest.LifeCycle
import GeoDNS.Healthtest.Test
import GeoDNS.Healthtest.FromMap
import GeoDNS.Healthtest.FileTester
import GeoDNS.Healthtest.Runner
import GeoDNS.Healthtest.Testers
import GeoDNS.Healthtest.Reports
import GeoDNS.Targeting.Geo
import GeoDNS.Targeting.Targets
import GeoDNS.Targeting.Monotone
import GeoDNS.Targeting.Words
import GeoDNS.Targeting.GeoIP2
import GeoDNS.Zones.Zone
import GeoDNS.Zones.Reader
import GeoDNS.Zones.Loaded
import GeoDNS.Zones.FindLabels
import GeoDNS.Zones.Termination
import GeoDNS.Zones.Matches
import GeoDNS.Zones.Picker
import GeoDNS.Zones.Health
import GeoDNS.Zones.Installed
import GeoDNS.Zones.MuxManager
import GeoDNS.Zones.Slots
import GeoDNS.Zones.Reload
import GeoDNS.Zones.Serial
import GeoDNS.Zones.Restart
import GeoDNS.Zones.ZoneStats
import GeoDNS.Zones.Removal
import GeoDNS.Zones.Metrics
import GeoDNS.Zones.Steady
import GeoDNS.Zones.AliasChain
import GeoDNS.Zones.Changes
import GeoDNS.Zones.Settings
import GeoDNS.Zones.SecondPass
import GeoDNS.Zones.Entries
import GeoDNS.Zones.Representation
import GeoDNS.Zones.Reordered
import GeoDNS.Zones.Order
import GeoDNS.Zones.Spelling
import GeoDNS.Zones.Balance
import GeoDNS.Zones.Drawing
import GeoDNS.Zones.Closest
import GeoDNS.Zones.Deficit
import GeoDNS.Zones.Qualified
import GeoDNS.Zones.Numbers
import GeoDNS.Zones.Overwritten
import GeoDNS.Zones.EmptyText
import GeoDNS.Zones.Bare
import GeoDNS.Server.Serve
import GeoDNS.Server.NxDomain
import GeoDNS.Server.ParseIP
import GeoDNS.Server.Fallback
import GeoDNS.Server.Response
import GeoDNS.Server.Scope
import GeoDNS.Server.Edns
import GeoDNS.Server.Address
import GeoDNS.Server.NonTerminal
import GeoDNS.Server.Dispatch
import GeoDNS.Server.AliasLeak
import GeoDNS.Server.LetterCase
import GeoDNS.Server.ClosestLoop
import GeoDNS.Server.Isolation
import GeoDNS.Server.Relative
import GeoDNS.Server.Answers
import GeoDNS.Server.Healthy
import GeoDNS.Server.Private
import GeoDNS.Server.Provenance
import GeoDNS.Logs.Stats
import GeoDNS.Logs.ProcessChan
import GeoDNS.Logs.ProcessFile
import GeoDNS.Logs.QueryLog
import GeoDNS.Server.Logged
import GeoDNS.App.Config
import GeoDNS.App.BasicAuth
import GeoDNS.App.Interfaces
import GeoDNS.Applog
