import LinearProgram.CommandLine
import LinearProgram.Main
import LinearProgram.Model.Edit
import LinearProgram.Proofs.Rational.Dot
import LinearProgram.Proofs.Simplex.Equation
import LinearProgram.Proofs.Simplex.BasicSolution
import LinearProgram.Proofs.Simplex.Contest
import LinearProgram.Proofs.Simplex.Choice
import LinearProgram.Proofs.Simplex.Climb
import LinearProgram.Proofs.Simplex.Layout
import LinearProgram.Proofs.Simplex.Start
import LinearProgram.Proofs.Simplex.Pricing
import LinearProgram.Proofs.Simplex.HandOver
import LinearProgram.Proofs.Model.Construction
import LinearProgram.Proofs.Model.Feasibility
import LinearProgram.Proofs.Simplex.Course
import LinearProgram.Proofs.Simplex.Watched
import LinearProgram.Proofs.Simplex.Dropped
import LinearProgram.Proofs.Simplex.Exact
import LinearProgram.Proofs.Simplex.Soundness
import LinearProgram.Proofs.Simplex.Tolerance
import LinearProgram.Proofs.Simplex.Progress
import LinearProgram.Proofs.Simplex.Cycling
import LinearProgram.Proofs.Simplex.Termination
import LinearProgram.Proofs.Simplex.Interruption
import LinearProgram.Proofs.Simplex.Sharpness
import LinearProgram.Proofs.Simplex.Verdicts
import LinearProgram.Proofs.Decimal.Digits
import LinearProgram.Proofs.Double.Sign
import LinearProgram.Proofs.Engine.ModelFile
import LinearProgram.Proofs.Engine.ModelNames
import LinearProgram.Proofs.Model.Additions
import LinearProgram.Proofs.Text.Trimming
import LinearProgram.Proofs.Double.Zero
import LinearProgram.Proofs.Solution.Point
import LinearProgram.Proofs.Engine.SolutionReader
import LinearProgram.Proofs.Engine.SolutionFile
import LinearProgram.Proofs.Engine.Outcome
import LinearProgram.Proofs.Host.Clock
import LinearProgram.Proofs.Host.Record
import LinearProgram.Proofs.Engine.Course
import LinearProgram.Proofs.Solution.Contract
import LinearProgram.Proofs.Simplex.Truncation
import LinearProgram.Proofs.Model.Renaming
import LinearProgram.Proofs.Solution.Renaming
import LinearProgram.Proofs.Job.Course
import LinearProgram.Proofs.Job.Requests
import LinearProgram.Proofs.CommandLine.Exit
import LinearProgram.Proofs.Model.Refusals
import LinearProgram.Proofs.Solution.Columns
import LinearProgram.Proofs.Text.Layout
import LinearProgram.Proofs.Engine.SolutionText
import LinearProgram.Proofs.Double.Range
import LinearProgram.Proofs.Json.Words
import LinearProgram.Proofs.Json.Numbers
import LinearProgram.Proofs.Json.Grammar
import LinearProgram.Proofs.Json.Written
import LinearProgram.Proofs.Limits.Document
import LinearProgram.Proofs.Limits.Acceptance
import LinearProgram.Proofs.Limits.Written
import LinearProgram.Proofs.Model.Merging
import LinearProgram.Proofs.Simplex.Negation
import LinearProgram.Proofs.Report.Rows
import LinearProgram.Proofs.Report.Incumbent
import LinearProgram.Proofs.Report.Document
import LinearProgram.Proofs.Simplex.Range
import LinearProgram.Proofs.Simplex.RatioTest
import LinearProgram.Proofs.Simplex.Representation
import LinearProgram.Proofs.Simplex.Transition
