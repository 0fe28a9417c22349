import PlotEmbedding.Session
import PlotEmbedding.Main
import PlotEmbedding.Proofs.History
import PlotEmbedding.Proofs.Chronicle
import PlotEmbedding.Proofs.Reentry
import PlotEmbedding.Proofs.HookLedger
import PlotEmbedding.Proofs.HandingOn
import PlotEmbedding.Proofs.InForce
import PlotEmbedding.Proofs.EmbeddedOnce
import PlotEmbedding.Proofs.Course
import PlotEmbedding.Proofs.Transparency
import PlotEmbedding.Proofs.Interruption
import PlotEmbedding.Proofs.Text.Units
import PlotEmbedding.Proofs.Undisturbed
import PlotEmbedding.Proofs.ClassFilter
import PlotEmbedding.Proofs.Strictness
import PlotEmbedding.Proofs.OrderIndependence
import PlotEmbedding.Proofs.ToldParents
import PlotEmbedding.Proofs.Composure
import PlotEmbedding.Proofs.ToldFailures
import PlotEmbedding.Proofs.Nesting
import PlotEmbedding.Proofs.Admission
import PlotEmbedding.Proofs.Persistence
import PlotEmbedding.Proofs.Installing
import PlotEmbedding.Proofs.HandleReading
import PlotEmbedding.Proofs.HandleText
import PlotEmbedding.Proofs.EventEncoding
import PlotEmbedding.Proofs.FillingSize
import PlotEmbedding.Proofs.Wording
import PlotEmbedding.Proofs.ErrorOrder
import PlotEmbedding.Proofs.CommandLine.Answers
