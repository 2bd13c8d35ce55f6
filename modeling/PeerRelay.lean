import PeerRelay.Bench.Host
import PeerRelay.Bench.Observation
import PeerRelay.Client
import PeerRelay.Main
import PeerRelay.Pool
import PeerRelay.Relay.Writer
import PeerRelay.Server
import PeerRelay.Settings.Layers
import PeerRelay.Proofs.Registry
import PeerRelay.Proofs.Registry.Marks
import PeerRelay.Proofs.Pool
import PeerRelay.Proofs.Text.Utf8
import PeerRelay.Proofs.Wire.Framing
import PeerRelay.Proofs.Wire.Resync
import PeerRelay.Proofs.Wire.Cursor
import PeerRelay.Proofs.Wire.Grammar
import PeerRelay.Proofs.Wire.Request
import PeerRelay.Proofs.Wire.PeerTable
import PeerRelay.Proofs.Wire.Response
import PeerRelay.Proofs.Directory
import PeerRelay.Proofs.Directory.History
import PeerRelay.Proofs.Directory.Mirror
import PeerRelay.Proofs.Relay.Frame
import PeerRelay.Proofs.Relay.Logins
import PeerRelay.Proofs.Relay.LoggingIn
import PeerRelay.Proofs.Relay.LoginRuns
import PeerRelay.Proofs.Relay.Offers
import PeerRelay.Proofs.Relay.Outboxes
import PeerRelay.Proofs.Relay.Answers
import PeerRelay.Proofs.Relay.Lasting
import PeerRelay.Proofs.Relay.Registration
import PeerRelay.Proofs.Relay.Ending
import PeerRelay.Proofs.Relay.Joining
import PeerRelay.Proofs.Relay.RegistrationRuns
import PeerRelay.Proofs.Channel.Admission
import PeerRelay.Proofs.Channel.Addresses
import PeerRelay.Proofs.Relay.Moments
import PeerRelay.Proofs.Relay.Writing
import PeerRelay.Proofs.Relay.Streams
import PeerRelay.Proofs.Relay.Delivery
import PeerRelay.Proofs.Relay.Beside
import PeerRelay.Proofs.Relay.AnnouncementRuns
import PeerRelay.Proofs.Relay.Calls
import PeerRelay.Proofs.Relay.Slots
import PeerRelay.Proofs.Relay.LoginStages
import PeerRelay.Proofs.Relay.LoginRace
import PeerRelay.Proofs.Relay.Errands
import PeerRelay.Proofs.Relay.Tidying
import PeerRelay.Proofs.Relay.Leftovers
import PeerRelay.Proofs.Relay.Overtaking
import PeerRelay.Proofs.Relay.Counting
import PeerRelay.Proofs.Relay.Connections
import PeerRelay.Proofs.Relay.ChannelCounts
import PeerRelay.Proofs.Relay.StreamCounts
import PeerRelay.Proofs.Relay.Lifecycles
import PeerRelay.Proofs.Relay.Closing
import PeerRelay.Proofs.Http
import PeerRelay.Proofs.Relay.Metering
import PeerRelay.Proofs.Relay.Arrivals
import PeerRelay.Proofs.Relay.TrafficAccounts
import PeerRelay.Proofs.Relay.Requests
import PeerRelay.Proofs.Relay.Replies
import PeerRelay.Proofs.Relay.Reading
import PeerRelay.Proofs.Relay.Places
import PeerRelay.Proofs.Relay.Parting
import PeerRelay.Proofs.Relay.Departure
import PeerRelay.Proofs.Channel.Stages
import PeerRelay.Proofs.Relay.Teardown
import PeerRelay.Proofs.Relay.StopRaces
import PeerRelay.Proofs.Channel.Intake
import PeerRelay.Proofs.Channel.Attainment
import PeerRelay.Proofs.Channel.Exchange
import PeerRelay.Proofs.Channel.Forwarding
import PeerRelay.Proofs.Channel.Watchdog
import PeerRelay.Proofs.Relay.Payloads
import PeerRelay.Proofs.Traffic.Reports
import PeerRelay.Proofs.Channel.Reports
import PeerRelay.Proofs.Net.AddressText
import PeerRelay.Proofs.Settings.CommandLine
import PeerRelay.Proofs.Settings.Fields
import PeerRelay.Proofs.Settings.Precedence
import PeerRelay.Proofs.Settings.Layering
import PeerRelay.Proofs.Pool.Likeness
import PeerRelay.Proofs.Registry.Sharing
