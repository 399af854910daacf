import AltKeeper.Lib.Prog
import AltKeeper.Lib.Threads
import AltKeeper.Lib.Utf8
import AltKeeper.Lib.Bytes
import AltKeeper.Lib.Split
import AltKeeper.Lib.Dns
import AltKeeper.Lib.Greatest
import AltKeeper.Text
import AltKeeper.Identity
import AltKeeper.Dnssd
import AltKeeper.Dnssd.Wire
import AltKeeper.Dnssd.Reading
import AltKeeper.Dnssd.Reply
import AltKeeper.Dnssd.Echo
import AltKeeper.Dnssd.Discovery
import AltKeeper.Dnssd.Grammar
import AltKeeper.Dnssd.Question
import AltKeeper.Json
import AltKeeper.Profile
import AltKeeper.Profile.Latest
import AltKeeper.Profile.Slice
import AltKeeper.System
import AltKeeper.Base64
import AltKeeper.Phone
import AltKeeper.Phone.Search
import AltKeeper.AltServer
import AltKeeper.Renew
import AltKeeper.Renew.Calls
import AltKeeper.Renew.Due
import AltKeeper.Renew.Steps
import AltKeeper.Renew.Renewal
import AltKeeper.Renew.Convergence
import AltKeeper.Page
import AltKeeper.Page.Rows
import AltKeeper.Web
import AltKeeper.Web.Calls
import AltKeeper.Process
import AltKeeper.Process.Conduct
import AltKeeper.Process.Connections
import AltKeeper.Process.Jobs
import AltKeeper.Process.Play
import AltKeeper.Process.Exclusion
import AltKeeper.Process.Markers
import AltKeeper.Process.Profiles
import AltKeeper.AltServer.Calls
import AltKeeper.AltServer.Operations
import AltKeeper.AltServer.Stream
import AltKeeper.AltServer.Session
import AltKeeper.AltServer.Outcome
import AltKeeper.AltServer.Panics
import AltKeeper.AltServer.Installs
import AltKeeper.AltServer.Requests
import AltKeeper.AltServer.Replies
import AltKeeper.AltServer.Framing
import AltKeeper.Process.View
import AltKeeper.Lib.Desk
import AltKeeper.Process.Codes
import AltKeeper.Dnssd.Existence
import AltKeeper.Lib.Bits
import AltKeeper.Start
import AltKeeper.Dnssd.Reverse
import AltKeeper.Dnssd.Letters
import AltKeeper.AltServer.Closing
import AltKeeper.Base64.Sextets
import AltKeeper.Lib.Base64
import AltKeeper.Guard
import AltKeeper.Guard.Pin
import AltKeeper.Guard.Host
import AltKeeper.Profile.Envelope
import AltKeeper.Text.Lines
import AltKeeper.Web.History
import AltKeeper.Phone.Attempts
import AltKeeper.Saved
import AltKeeper.Saved.Kept
import AltKeeper.Lib.I64
import AltKeeper.Lib.Calendar
import AltKeeper.Iso8601
import AltKeeper.Iso8601.Gregorian
import AltKeeper.Account
import AltKeeper.Account.Disk
import AltKeeper.GrandSlam.Bag
import AltKeeper.GrandSlam.Ending
import AltKeeper.Process.Progress
import AltKeeper.Process.Cache
import AltKeeper.Anisette.Sessions
import AltKeeper.Anisette.Relay
import AltKeeper.Developer.Requests
import AltKeeper.Main
import AltKeeper.Main.Announcement
import AltKeeper.Terminal
import AltKeeper.Terminal.Login
import AltKeeper.Terminal.Apps
import AltKeeper.Terminal.Program
