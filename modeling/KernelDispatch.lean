import KernelDispatch.Board.Basic
import KernelDispatch.Board.Configuration
import KernelDispatch.Board.Device
import KernelDispatch.Board.Program
import KernelDispatch.Directory
import KernelDispatch.Error
import KernelDispatch.Forecast.Calibration
import KernelDispatch.Forecast.CostModel
import KernelDispatch.Forecast.Line
import KernelDispatch.Forecast.Prediction
import KernelDispatch.Json.Basic
import KernelDispatch.Json.Members
import KernelDispatch.Json.Numeral
import KernelDispatch.Json.Parser
import KernelDispatch.Json.Writer
import KernelDispatch.Launch.Geometry
import KernelDispatch.Launch.Mixture
import KernelDispatch.Launch.NdRange
import KernelDispatch.Launch.Task
import KernelDispatch.NameMap
import KernelDispatch.Number.Binary
import KernelDispatch.Number.Layout
import KernelDispatch.Number.Scalar
import KernelDispatch.Number.Shortest
import KernelDispatch.Number.Time
import KernelDispatch.Proofs.Board.Caching
import KernelDispatch.Proofs.Board.Dispatch
import KernelDispatch.Proofs.Board.Images
import KernelDispatch.Proofs.Board.Lanes
import KernelDispatch.Proofs.Board.Submissions
import KernelDispatch.Proofs.Directory
import KernelDispatch.Proofs.Forecast.Blending
import KernelDispatch.Proofs.Forecast.FiniteLines
import KernelDispatch.Proofs.Forecast.LeastSquares
import KernelDispatch.Proofs.Forecast.SingleSize
import KernelDispatch.Proofs.Json.Decimals
import KernelDispatch.Proofs.Json.Reading
import KernelDispatch.Proofs.Json.Writing
import KernelDispatch.Proofs.Launch.Chances
import KernelDispatch.Proofs.Launch.Drawing
import KernelDispatch.Proofs.Launch.Products
import KernelDispatch.Proofs.Number.Canonical
import KernelDispatch.Proofs.Number.Double
import KernelDispatch.Proofs.Number.Exact
import KernelDispatch.Proofs.Number.Order
import KernelDispatch.Proofs.Number.Rounding
import KernelDispatch.Proofs.Number.Scaling
import KernelDispatch.Proofs.Number.Shortest
import KernelDispatch.Proofs.Number.Spans
import KernelDispatch.Proofs.Queue.Bench
import KernelDispatch.Proofs.Queue.Closing
import KernelDispatch.Proofs.Queue.Course
import KernelDispatch.Proofs.Queue.Fare
import KernelDispatch.Proofs.Queue.Likeness
import KernelDispatch.Proofs.Queue.Liveness
import KernelDispatch.Proofs.Queue.Rest
import KernelDispatch.Proofs.Queue.Signals
import KernelDispatch.Proofs.Queue.Trace
import KernelDispatch.Proofs.Queue.Turn
import KernelDispatch.Proofs.Scheduler.Accounts
import KernelDispatch.Proofs.Scheduler.Agreement
import KernelDispatch.Proofs.Scheduler.Attestation
import KernelDispatch.Proofs.Scheduler.Audience
import KernelDispatch.Proofs.Scheduler.Calls
import KernelDispatch.Proofs.Scheduler.Change
import KernelDispatch.Proofs.Scheduler.Collection
import KernelDispatch.Proofs.Scheduler.Course
import KernelDispatch.Proofs.Scheduler.Emission
import KernelDispatch.Proofs.Scheduler.Entry
import KernelDispatch.Proofs.Scheduler.Estimates
import KernelDispatch.Proofs.Scheduler.Execution
import KernelDispatch.Proofs.Scheduler.Forgetting
import KernelDispatch.Proofs.Scheduler.Interleaving
import KernelDispatch.Proofs.Scheduler.Isolation
import KernelDispatch.Proofs.Scheduler.Lane
import KernelDispatch.Proofs.Scheduler.Learning
import KernelDispatch.Proofs.Scheduler.Numbering
import KernelDispatch.Proofs.Scheduler.Operations
import KernelDispatch.Proofs.Scheduler.Registration
import KernelDispatch.Proofs.Scheduler.Resetting
import KernelDispatch.Proofs.Scheduler.Serving
import KernelDispatch.Proofs.Scheduler.Waiting
import KernelDispatch.Proofs.Telemetry.Histogram
import KernelDispatch.Proofs.Telemetry.MeasurementLog
import KernelDispatch.Proofs.Telemetry.Metrics
import KernelDispatch.Proofs.Telemetry.Quantiles
import KernelDispatch.Proofs.Telemetry.Raising
import KernelDispatch.Proofs.Telemetry.SpecialValues
import KernelDispatch.Proofs.Text.Lines
import KernelDispatch.Queue.Basic
import KernelDispatch.Queue.Bench
import KernelDispatch.Queue.Phase
import KernelDispatch.Queue.Worker
import KernelDispatch.Scheduler.Basic
import KernelDispatch.Scheduler.Blueprint
import KernelDispatch.Scheduler.Books
import KernelDispatch.Scheduler.Workers
import KernelDispatch.Settings
import KernelDispatch.Telemetry.Exchange
import KernelDispatch.Telemetry.Histogram
import KernelDispatch.Telemetry.MeasurementLog
import KernelDispatch.Telemetry.Metrics
import KernelDispatch.Telemetry.Record
import KernelDispatch.Text.Blank
import KernelDispatch.Text.Fields
import KernelDispatch.Text.Path
import KernelDispatch.Text.Quoted
import KernelDispatch.Text.Shapeless
import KernelDispatch.Text.Utf8
