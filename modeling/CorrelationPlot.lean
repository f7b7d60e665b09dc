import CorrelationPlot.Main
import CorrelationPlot.Proofs.Axes
import CorrelationPlot.Proofs.CellText
import CorrelationPlot.Proofs.Chart.Changes
import CorrelationPlot.Proofs.Chart.Coherence
import CorrelationPlot.Proofs.Chart.History
import CorrelationPlot.Proofs.Chart.Resizes
import CorrelationPlot.Proofs.Chart.Titles
import CorrelationPlot.Proofs.Cli.Outputs
import CorrelationPlot.Proofs.ColorText
import CorrelationPlot.Proofs.Csv.Exchange
import CorrelationPlot.Proofs.Csv.Faults
import CorrelationPlot.Proofs.Csv.Grouping
import CorrelationPlot.Proofs.Csv.Regrouped
import CorrelationPlot.Proofs.Document
import CorrelationPlot.Proofs.Faults
import CorrelationPlot.Proofs.Grid
import CorrelationPlot.Proofs.Inferred
import CorrelationPlot.Proofs.Newcomers
import CorrelationPlot.Proofs.Ramp
import CorrelationPlot.Proofs.Script.Whole
import CorrelationPlot.Proofs.Settings
import CorrelationPlot.Proofs.Sketch.Density
import CorrelationPlot.Proofs.Sketch.Drawing
import CorrelationPlot.Proofs.Sketch.Panels
import CorrelationPlot.Proofs.TagOrder
