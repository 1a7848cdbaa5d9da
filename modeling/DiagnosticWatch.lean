import DiagnosticWatch.Main
import DiagnosticWatch.Proofs.Session.Signalled
import DiagnosticWatch.Proofs.Session.Stream
import DiagnosticWatch.Proofs.Session.Waiting
import DiagnosticWatch.Proofs.Session.Stopped
import DiagnosticWatch.Proofs.Session.Unfailing
import DiagnosticWatch.Proofs.Session.TalkOfCalls
import DiagnosticWatch.Proofs.Session.Cadence
import DiagnosticWatch.Proofs.Session.Forsaken
import DiagnosticWatch.Proofs.Report.RoundTrip
import DiagnosticWatch.Proofs.Wire.WholeFrame
import DiagnosticWatch.Proofs.Store
import DiagnosticWatch.Proofs.Rounds
import DiagnosticWatch.Proofs.Session.Graph
import DiagnosticWatch.Proofs.Settings.Loading
import DiagnosticWatch.Proofs.Report.Outline
import DiagnosticWatch.Proofs.Session.KeepAlive
import DiagnosticWatch.Proofs.Wire.Slices
import DiagnosticWatch.Proofs.Session.Sending
import DiagnosticWatch.Proofs.Settings.Brackets
import DiagnosticWatch.Proofs.Session.Setup
import DiagnosticWatch.Proofs.Session.Dialled
import DiagnosticWatch.Proofs.Session.Bystanders
import DiagnosticWatch.Proofs.Session.Ticks
