import TensorEmit.ArrayText
import TensorEmit.Attribute.Convert
import TensorEmit.Attribute.Neutral
import TensorEmit.Attribute.Registry
import TensorEmit.Code.Arrange
import TensorEmit.Code.Construct
import TensorEmit.Code.Extent
import TensorEmit.Code.Fragment
import TensorEmit.Code.Header
import TensorEmit.Code.Statement
import TensorEmit.Code.Template
import TensorEmit.Code.TypeName
import TensorEmit.Code.Variables
import TensorEmit.Code.Workbench
import TensorEmit.Command.Arguments
import TensorEmit.Command.Listing
import TensorEmit.Command.Run
import TensorEmit.Disk.Basic
import TensorEmit.Disk.Idx
import TensorEmit.Disk.Path
import TensorEmit.Disk.Save
import TensorEmit.Disk.Site
import TensorEmit.Element
import TensorEmit.Element.Spelling
import TensorEmit.Entries
import TensorEmit.Fault
import TensorEmit.Generate
import TensorEmit.Graph.Basic
import TensorEmit.Graph.Copy
import TensorEmit.Graph.Order
import TensorEmit.Graph.Prune
import TensorEmit.Graph.ScopeCluster
import TensorEmit.Graph.View
import TensorEmit.Graph.Wire
import TensorEmit.Graph.Workspace
import TensorEmit.Grid.Basic
import TensorEmit.Grid.Kind
import TensorEmit.Main
import TensorEmit.Number.Binary
import TensorEmit.Number.Column
import TensorEmit.Number.FloatText
import TensorEmit.Number.Shortest
import TensorEmit.Number.Total
import TensorEmit.Operator
import TensorEmit.Options
import TensorEmit.Pass.Dropout
import TensorEmit.Pass.Inline
import TensorEmit.Pass.Pipeline
import TensorEmit.Pass.RefCount
import TensorEmit.Pass.Registry
import TensorEmit.Position
import TensorEmit.Proofs.Agreement
import TensorEmit.Proofs.Annotation
import TensorEmit.Proofs.Arguments
import TensorEmit.Proofs.Attributes
import TensorEmit.Proofs.ConstantFiles
import TensorEmit.Proofs.ConstantSaving
import TensorEmit.Proofs.ContentEmission
import TensorEmit.Proofs.ContextCalls
import TensorEmit.Proofs.Copies
import TensorEmit.Proofs.Dropout
import TensorEmit.Proofs.Edges
import TensorEmit.Proofs.Emission
import TensorEmit.Proofs.EntryAgreement
import TensorEmit.Proofs.EntryPoint
import TensorEmit.Proofs.Export
import TensorEmit.Proofs.FailedRuns
import TensorEmit.Proofs.FaithfulCopies
import TensorEmit.Proofs.Files
import TensorEmit.Proofs.Histories
import TensorEmit.Proofs.ImportedGraphs
import TensorEmit.Proofs.Importing
import TensorEmit.Proofs.InPlace
import TensorEmit.Proofs.IncludeLines
import TensorEmit.Proofs.KeptTexts
import TensorEmit.Proofs.LaterRuns
import TensorEmit.Proofs.ListArguments
import TensorEmit.Proofs.LiveNodes
import TensorEmit.Proofs.LivePart
import TensorEmit.Proofs.Meaning
import TensorEmit.Proofs.NameReading
import TensorEmit.Proofs.Notes
import TensorEmit.Proofs.OperatorCalls
import TensorEmit.Proofs.Order
import TensorEmit.Proofs.Outcome
import TensorEmit.Proofs.Ownership
import TensorEmit.Proofs.PairedRuns
import TensorEmit.Proofs.Parallel
import TensorEmit.Proofs.PartialChanges
import TensorEmit.Proofs.PassOrder
import TensorEmit.Proofs.Passes
import TensorEmit.Proofs.PrivateAttributes
import TensorEmit.Proofs.Pruning
import TensorEmit.Proofs.Reading
import TensorEmit.Proofs.Rearrangements
import TensorEmit.Proofs.ReferenceCounts
import TensorEmit.Proofs.Registration
import TensorEmit.Proofs.Rendering
import TensorEmit.Proofs.Renumbering
import TensorEmit.Proofs.RepeatedPasses
import TensorEmit.Proofs.Rerouting
import TensorEmit.Proofs.RoundTrips
import TensorEmit.Proofs.ScopedOptions
import TensorEmit.Proofs.SortedPruning
import TensorEmit.Proofs.Sorting
import TensorEmit.Proofs.SourceText
import TensorEmit.Proofs.SpareReads
import TensorEmit.Proofs.StatementForms
import TensorEmit.Proofs.Steps
import TensorEmit.Proofs.TensorNames
import TensorEmit.Proofs.Texts
import TensorEmit.Proofs.UseCounts
import TensorEmit.Proofs.WeightArrays
import TensorEmit.Proofs.WeightLiterals
import TensorEmit.Proofs.WholeRuns
import TensorEmit.Proofs.WireForm
import TensorEmit.Proofs.Workbenches
import TensorEmit.TensorName
import TensorEmit.Text.Classes
import TensorEmit.Text.HiddenRanges
import TensorEmit.Text.Integer
import TensorEmit.Text.Quoted
import TensorEmit.Text.Rows
import TensorEmit.Text.Search
import TensorEmit.Text.Similar
import TensorEmit.Text.Upper
import TensorEmit.Text.WordRanges
import TensorEmit.Training
import TensorEmit.Value
