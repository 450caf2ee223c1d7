import PaneWatch.Files.Tree
import PaneWatch.Json.Form
import PaneWatch.Json.Lexeme
import PaneWatch.Json.Reader
import PaneWatch.Json.Value
import PaneWatch.Marker
import PaneWatch.Pane
import PaneWatch.Recording
import PaneWatch.Session
import PaneWatch.Settings
import PaneWatch.Text
import PaneWatch.Time.Clock
import PaneWatch.Time.Rack
import PaneWatch.Time.Timestamp
import PaneWatch.Tmux
import PaneWatch.Watch
import PaneWatch.Proofs.Files.Writes
import PaneWatch.Proofs.Json.CutText
import PaneWatch.Proofs.Json.FormText
import PaneWatch.Proofs.Json.Lexemes
import PaneWatch.Proofs.Json.Members
import PaneWatch.Proofs.Json.ValueText
import PaneWatch.Proofs.Marker.Elapsed
import PaneWatch.Proofs.Marker.ExitCode
import PaneWatch.Proofs.Marker.Iteration
import PaneWatch.Proofs.Marker.Mode
import PaneWatch.Proofs.Marker.Prompt
import PaneWatch.Proofs.Pane.Queue
import PaneWatch.Proofs.Recording.CutText
import PaneWatch.Proofs.Recording.Dump
import PaneWatch.Proofs.Recording.FailedDump
import PaneWatch.Proofs.Recording.RoundTrip
import PaneWatch.Proofs.Recording.Shape
import PaneWatch.Proofs.Recording.SnapshotShape
import PaneWatch.Proofs.Session.Alongside
import PaneWatch.Proofs.Session.FaithfulTime
import PaneWatch.Proofs.Session.LastTarget
import PaneWatch.Proofs.Session.StartTime
import PaneWatch.Proofs.Session.Steady
import PaneWatch.Proofs.Settings.Lookup
import PaneWatch.Proofs.Text.Numeral
import PaneWatch.Proofs.Text.Pattern
import PaneWatch.Proofs.Text.Trim
import PaneWatch.Proofs.Text.Utf8
import PaneWatch.Proofs.Time.Families
import PaneWatch.Proofs.Time.Lineage
import PaneWatch.Proofs.Time.Millis
import PaneWatch.Proofs.Time.WrittenTime
import PaneWatch.Proofs.Tmux.Capture
import PaneWatch.Proofs.Watch.Deadlines
import PaneWatch.Proofs.Watch.ExactTermination
import PaneWatch.Proofs.Watch.ExactWait
import PaneWatch.Proofs.Watch.Expiry
import PaneWatch.Proofs.Watch.FiniteScript
import PaneWatch.Proofs.Watch.Forward
import PaneWatch.Proofs.Watch.Journal
import PaneWatch.Proofs.Watch.Lockstep
import PaneWatch.Proofs.Watch.MoreTargets
import PaneWatch.Proofs.Watch.OldMarker
import PaneWatch.Proofs.Watch.Outcome
import PaneWatch.Proofs.Watch.Rounds
import PaneWatch.Proofs.Watch.Served
import PaneWatch.Proofs.Watch.Steps
import PaneWatch.Proofs.Watch.StillPane
import PaneWatch.Proofs.Watch.Truncation
