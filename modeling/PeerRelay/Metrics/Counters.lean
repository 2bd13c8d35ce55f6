import PeerRelay.Metrics.Exposition
import PeerRelay.Traffic.Snapshot

/-!
# The relay's counters

The relay counts the sessions, logins and channels it has seen, the datagrams
it has relayed in each direction and those it has dropped, and the bytes it has
skipped on control connections. Two gauges follow the sessions and channels
that are open now, and a histogram collects how long channels lived.
-/

namespace PeerRelay

/-- How many observed times lie within each bound, all of them, and their sum. -/
structure Histogram where
  /-- The upper bounds in seconds. -/
  bounds : List Nat
  /-- For each bound, the observations up to it that no smaller bound holds. -/
  counts : List Nat := bounds.map (fun _ => 0)
  /-- The observations beyond the last bound. -/
  beyond : Nat := 0
  sum : Float := 0

namespace Histogram

/-- Counts a time, in nanoseconds, at the first bound that it does not exceed. -/
def place (nanoseconds : Nat) : List Nat → List Nat → Option (List Nat)
  | bound :: bounds, n :: counts =>
    if nanoseconds ≤ bound * 1000000000 then some ((n + 1) :: counts)
    else (place nanoseconds bounds counts).map (n :: ·)
  | _, _ => none

def observe (nanoseconds : Nat) (h : Histogram) : Histogram :=
  let h := { h with sum := h.sum + Traffic.seconds nanoseconds }
  match place nanoseconds h.bounds h.counts with
  | some counts => { h with counts }
  | none => { h with beyond := h.beyond + 1 }

/-- The number of observations. -/
def total (h : Histogram) : Nat := h.counts.foldl (· + ·) h.beyond

/-- Each bound with the observations up to it. -/
def cumulative (h : Histogram) : List (Nat × Nat) :=
  h.bounds.zip ((h.counts.foldl (fun acc n => acc ++ [acc.getLastD 0 + n]) []))

end Histogram

/-- Everything the relay counts. -/
structure Metrics where
  activeSessions : Int := 0
  sessions : UInt64 := 0
  rejectedConnections : UInt64 := 0
  logins : UInt64 := 0
  refusedLogins : UInt64 := 0
  activeChannels : Int := 0
  channels : UInt64 := 0
  lifetimes : Histogram := { bounds := [1, 10, 60, 300, 900, 3600, 14400] }
  uploadBytes : UInt64 := 0
  uploadPackets : UInt64 := 0
  downloadBytes : UInt64 := 0
  downloadPackets : UInt64 := 0
  dropped : UInt64 := 0
  resyncs : UInt64 := 0

namespace Metrics

def sessionOpened (m : Metrics) : Metrics :=
  { m with sessions := m.sessions + 1, activeSessions := m.activeSessions + 1 }

def sessionClosed (m : Metrics) : Metrics :=
  { m with activeSessions := m.activeSessions - 1 }

def connectionRejected (m : Metrics) : Metrics :=
  { m with rejectedConnections := m.rejectedConnections + 1 }

def loginSucceeded (m : Metrics) : Metrics := { m with logins := m.logins + 1 }

def loginRefused (m : Metrics) : Metrics := { m with refusedLogins := m.refusedLogins + 1 }

def channelOpened (m : Metrics) : Metrics :=
  { m with channels := m.channels + 1, activeChannels := m.activeChannels + 1 }

/-- A channel closed after so many nanoseconds. -/
def channelClosed (nanoseconds : Nat) (m : Metrics) : Metrics :=
  { m with
    activeChannels := m.activeChannels - 1
    lifetimes := m.lifetimes.observe nanoseconds }

def uploaded (bytes : Nat) (m : Metrics) : Metrics :=
  { m with
    uploadBytes := m.uploadBytes + UInt64.ofNat bytes
    uploadPackets := m.uploadPackets + 1 }

def downloaded (bytes : Nat) (m : Metrics) : Metrics :=
  { m with
    downloadBytes := m.downloadBytes + UInt64.ofNat bytes
    downloadPackets := m.downloadPackets + 1 }

def datagramDropped (m : Metrics) : Metrics := { m with dropped := m.dropped + 1 }

def resynced (m : Metrics) : Metrics := { m with resyncs := m.resyncs + 1 }

/-- The bytes relayed in both directions. -/
def bytesRelayed (m : Metrics) : UInt64 := m.uploadBytes + m.downloadBytes

/-- The datagrams relayed in both directions. -/
def packetsRelayed (m : Metrics) : UInt64 := m.uploadPackets + m.downloadPackets

def counterFamily (name help : String) (value : UInt64) : Family :=
  ⟨name, help, .counter, [{ value := value.toFloat }]⟩

def gaugeFamily (name help : String) (value : Int) : Family :=
  ⟨name, help, .gauge, [{ value := Float.ofInt value }]⟩

/-- The label of a histogram bucket with the given upper bound. -/
def bucketLabel (bound : String) : String :=
  "_bucket\x7ble=\"" ++ bound ++ "\"\x7d"

def histogramFamily (name help : String) (h : Histogram) : Family where
  name := name
  help := help
  kind := .histogram
  samples :=
    h.cumulative.map (fun b => ⟨bucketLabel (toString b.1), Float.ofNat b.2⟩) ++
      [⟨bucketLabel "+Inf", Float.ofNat h.total⟩, ⟨"_sum", h.sum⟩,
        ⟨"_count", Float.ofNat h.total⟩]

/-- Every counter as a family of its own. -/
def families (m : Metrics) : List Family :=
  [gaugeFamily "natproxy_active_sessions" "Connected control sessions" m.activeSessions,
    counterFamily "natproxy_sessions_total" "Control sessions accepted" m.sessions,
    counterFamily "natproxy_rejected_connections_total"
      "Connections closed at accept because of the session limit" m.rejectedConnections,
    counterFamily "natproxy_login_success_total" "Successful logins" m.logins,
    counterFamily "natproxy_login_failures_total" "Rejected logins" m.refusedLogins,
    gaugeFamily "natproxy_active_channels" "Open relay channels" m.activeChannels,
    counterFamily "natproxy_channels_total" "Relay channels created" m.channels,
    histogramFamily "natproxy_channel_duration_seconds" "Relay channel lifetime in seconds"
      m.lifetimes,
    counterFamily "natproxy_upload_bytes_total" "Bytes relayed from requester to destination"
      m.uploadBytes,
    counterFamily "natproxy_upload_packets_total"
      "Datagrams relayed from requester to destination" m.uploadPackets,
    counterFamily "natproxy_download_bytes_total" "Bytes relayed from destination to requester"
      m.downloadBytes,
    counterFamily "natproxy_download_packets_total"
      "Datagrams relayed from destination to requester" m.downloadPackets,
    counterFamily "natproxy_dropped_datagrams_total"
      "Datagrams dropped (foreign source, peer not authenticated)" m.dropped,
    counterFamily "natproxy_protocol_resyncs_total" "Bad control headers skipped" m.resyncs]

/-- The counters in text form, a line for each entry. -/
def lines (m : Metrics) : List String := exposition m.families

end Metrics

end PeerRelay
