import DnsServer.Process.Program
import DnsServer.Process.Machine
import DnsServer.Dns.Header
import DnsServer.Dns.Message
import DnsServer.Coms.Table
import DnsServer.Dns.Server
import DnsServer.Scoreboard
import DnsServer.Query
import DnsServer.Coms.Programs
import DnsServer.Coms.Requests
import DnsServer.Router.Programs
import DnsServer.Cli
import DnsServer.Router.Forwarding
import DnsServer.Coms.Sequential
import DnsServer.Cluster.Contacts
import DnsServer.Cluster.Outcomes
import DnsServer.Cluster.Replay
import DnsServer.Cluster.Joining
import DnsServer.Cluster.Brought
import DnsServer.Cluster.Versions
import DnsServer.Process.Protocol
import DnsServer.Process.Locks
import DnsServer.Router.Deadlock
import DnsServer.Process.Schedule
import DnsServer.Process.Ends
import DnsServer.Process.Exchange
import DnsServer.Cluster.Transfer
import DnsServer.Process.Dialogue
import DnsServer.Cluster.Talk
import DnsServer.Cluster.Effects
import DnsServer.Cluster.Custody
import DnsServer.Cluster.Conduct
import DnsServer.Cluster.Serving
import DnsServer.Cluster.Calling
import DnsServer.Cluster.Agreement
import DnsServer.Scoreboard.Answers
import DnsServer.Coms.Framing
import DnsServer.Scoreboard.Traffic
import DnsServer.Cluster.Codes
import DnsServer.Router.Locking
import DnsServer.Cluster.Sessions
import DnsServer.Cluster.Rejoining
import DnsServer.Process.Stream
import DnsServer.Cluster.PortList
import DnsServer.Process.Rely
import DnsServer.Router.Health
import DnsServer.Router.Rounds
import DnsServer.Handlers
import DnsServer.Coms.Scanning
import DnsServer.Cluster.Messages
import DnsServer.Router.Reply
import DnsServer.Coms.Fetching
import DnsServer.Coms.Closing
import DnsServer.Dns.Crafting
import DnsServer.Generator
import DnsServer.Router.Census
import DnsServer.Router.Polling
import DnsServer.Router.Refinement
import DnsServer.Process.Turns
import DnsServer.Router.Fairness
import DnsServer.Coms.HostsFile
import DnsServer.Scoreboard.First
import DnsServer.Coms.OwnFile
import DnsServer.Generator.Domains
import DnsServer.Router.Offline
import DnsServer.Cluster.Recovery
import DnsServer.Generator.Updates
import DnsServer.Generator.Bench
import DnsServer.Generator.Changes
import DnsServer.Scoreboard.ResultsFile
import DnsServer.Generator.Startup
import DnsServer.Generator.Options
import DnsServer.Router.Detection
import DnsServer.Router.Paused
import DnsServer.Generator.InTurn
import DnsServer.Cluster.Visits
