import Rimba.ApGate.RestartArm
import Rimba.ApGate.Stations
import Rimba.C6Trigger.CommandLine
import Rimba.C6Trigger.Commands
import Rimba.C6Trigger.PinMode
import Rimba.Capture.CcmpHeader
import Rimba.Capture.ElementScanners
import Rimba.Capture.Elements
import Rimba.Capture.Frame
import Rimba.Capture.GroupKey
import Rimba.Capture.HwRestart
import Rimba.Capture.MicCoverage
import Rimba.Capture.Pcap
import Rimba.Capture.Radiotap
import Rimba.Capture.S1gBeacon
import Rimba.DeepSleep.Console
import Rimba.DeepSleep.Cycles
import Rimba.DeepSleep.Dut
import Rimba.DeepSleep.Latencies
import Rimba.Foundation.Buffer
import Rimba.Foundation.Cascade
import Rimba.Foundation.ExpiringMap
import Rimba.Foundation.FloatOrder
import Rimba.Foundation.Framing
import Rimba.Foundation.GluedText
import Rimba.Foundation.HexText
import Rimba.Foundation.Json.Basic
import Rimba.Foundation.Json.Decimal
import Rimba.Foundation.Json.Printable
import Rimba.Foundation.Json.RoundTrip
import Rimba.Foundation.Json.Torn
import Rimba.Foundation.LinePattern
import Rimba.Foundation.Lines
import Rimba.Foundation.Loop
import Rimba.Foundation.Machine
import Rimba.Foundation.Memory
import Rimba.Foundation.Numerals
import Rimba.Foundation.Occurrences
import Rimba.Foundation.Octets
import Rimba.Foundation.OrderStatistics
import Rimba.Foundation.OrderedDict
import Rimba.Foundation.Pieces
import Rimba.Foundation.Program
import Rimba.Foundation.Route
import Rimba.Foundation.ScanText
import Rimba.Foundation.SizedBuffer
import Rimba.Foundation.StableSort
import Rimba.Foundation.Text
import Rimba.Foundation.Thread
import Rimba.Foundation.Timeline
import Rimba.Foundation.Utf8
import Rimba.Foundation.WrappingClock
import Rimba.Gate.AnnounceSweep
import Rimba.Gate.AnnounceWakeUp
import Rimba.Gate.ArpCodec
import Rimba.Gate.ArpFrame
import Rimba.Gate.ArpInterleaving
import Rimba.Gate.ArpReference
import Rimba.Gate.ArpTable
import Rimba.Gate.Bridge
import Rimba.Gate.ClientSet
import Rimba.Gate.Datapath
import Rimba.Gate.DatapathAccesses
import Rimba.Gate.DatapathCalls
import Rimba.Gate.Decapsulation
import Rimba.Gate.Departure
import Rimba.Gate.Disposition
import Rimba.Gate.Eviction
import Rimba.Gate.Identity
import Rimba.Gate.LoopFree
import Rimba.Gate.ProxyAnswer
import Rimba.Gate.ReadBounds
import Rimba.Gate.Snooping
import Rimba.Gate.Tasks
import Rimba.Gate.Teaching
import Rimba.Ibss.PeerHandOff
import Rimba.Line.ForcedLine
import Rimba.Line.Reporters
import Rimba.Line.Roles
import Rimba.PowerLadder.Capture
import Rimba.PowerLadder.Dut
import Rimba.PowerLadder.Plateaus
import Rimba.RawRps.StatsTlv
import Rimba.Regtest.BaselineFile
import Rimba.Regtest.BaselineHistory
import Rimba.Regtest.BaselineMerge
import Rimba.Regtest.Bench
import Rimba.Regtest.BuildVars
import Rimba.Regtest.CloneMirror
import Rimba.Regtest.CommandedWakes
import Rimba.Regtest.Console
import Rimba.Regtest.ConsoleCapture
import Rimba.Regtest.ConsoleReading
import Rimba.Regtest.CycleCount
import Rimba.Regtest.Drift
import Rimba.Regtest.Dscycle
import Rimba.Regtest.DscycleRun
import Rimba.Regtest.Flakes
import Rimba.Regtest.FlashCache
import Rimba.Regtest.FreshBoot
import Rimba.Regtest.Identity
import Rimba.Regtest.Ledger
import Rimba.Regtest.LinuxPeer
import Rimba.Regtest.Manifest
import Rimba.Regtest.MetaPersistence
import Rimba.Regtest.OnAir
import Rimba.Regtest.OnAirSilence
import Rimba.Regtest.OnAirVerdicts
import Rimba.Regtest.PeerBringUp
import Rimba.Regtest.PeerTeardown
import Rimba.Regtest.Power
import Rimba.Regtest.PowerScore
import Rimba.Regtest.PowerSilence
import Rimba.Regtest.RadioSilence
import Rimba.Regtest.Reporter
import Rimba.Regtest.RoleAssignment
import Rimba.Regtest.Silencing
import Rimba.Regtest.Smoke
import Rimba.Regtest.SmokeSilence
import Rimba.Regtest.WindowStats
import Rimba.Report.Fixture
import Rimba.Report.SharedConsole
