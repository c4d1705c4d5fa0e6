import GridQuery.Main
import GridQuery.Session
import GridQuery.Proofs.Nested
import GridQuery.Proofs.NamedTables
import GridQuery.Proofs.Readings
import GridQuery.Proofs.Lockstep
import GridQuery.Proofs.Replay
import GridQuery.Proofs.Selection
import GridQuery.Proofs.Anew
import GridQuery.Proofs.Matches
import GridQuery.Proofs.InnerJoin
import GridQuery.Proofs.OuterJoins
import GridQuery.Proofs.MirroredJoins
import GridQuery.Proofs.Spellings
import GridQuery.Proofs.Fields
import GridQuery.Proofs.SortOrder
import GridQuery.Proofs.Classes
import GridQuery.Proofs.Sorting
import GridQuery.Proofs.JoinRows
import GridQuery.Proofs.JoinChain
import GridQuery.Proofs.Blocks
import GridQuery.Proofs.JoinedColumns
import GridQuery.Proofs.OuterBinding
import GridQuery.Proofs.RowSets
import GridQuery.Proofs.Names
import GridQuery.Proofs.Titles
import GridQuery.Proofs.Locality
import GridQuery.Proofs.Pivoting
import GridQuery.Proofs.InOrder
import GridQuery.Proofs.Rectangular
import GridQuery.Proofs.Wrapping
import GridQuery.Proofs.Distinct
import GridQuery.Proofs.Placeholders
import GridQuery.Proofs.BindCheck
import GridQuery.Proofs.RoundTrip
import GridQuery.Proofs.Opened
import GridQuery.Proofs.Grouping
import GridQuery.Proofs.Expansion
import GridQuery.Proofs.Ahead
import GridQuery.Proofs.PivotRows
import GridQuery.Proofs.Collected
import GridQuery.Proofs.Visible
import GridQuery.Proofs.SteadyCells
import GridQuery.Proofs.PivotCounts
import GridQuery.Proofs.Confined
import GridQuery.Proofs.HavingSplit
import GridQuery.Proofs.Faults
import GridQuery.Proofs.FilterFaults
import GridQuery.Proofs.Recalled
import GridQuery.Proofs.OrderedRows
import GridQuery.Proofs.DistinctCells
import GridQuery.Proofs.ItemTexts
import GridQuery.Proofs.ClauseReferences
import GridQuery.Proofs.Splitting
import GridQuery.Proofs.Tiling
import GridQuery.Proofs.BracketedStatements
import GridQuery.Proofs.WrittenPlaceholders
import GridQuery.Proofs.OperandSequences
import GridQuery.Proofs.LargeNumbers
import GridQuery.Proofs.SignTexts
import GridQuery.Proofs.SetChains
import GridQuery.Proofs.Extremes
import GridQuery.Proofs.DistinctExtremes
import GridQuery.Proofs.Sums
import GridQuery.Proofs.Regrouping
import GridQuery.Proofs.Compositional
import GridQuery.Proofs.Ordinals
import GridQuery.Proofs.MovedColumns
import GridQuery.Proofs.PaddedRows
import GridQuery.Proofs.ConstantFields
import GridQuery.Proofs.ConstantKeys
import GridQuery.Proofs.FaultFree
import GridQuery.Proofs.FoundColumns
import GridQuery.Proofs.OuterColumns
import GridQuery.Proofs.SearchExpressions
import GridQuery.Proofs.Wildcards
import GridQuery.Proofs.ComparisonPaths
import GridQuery.Proofs.ComparedCells
import GridQuery.Proofs.NotNumbers
import GridQuery.Proofs.SelfEquality
import GridQuery.Proofs.TableActions
import GridQuery.Proofs.ColumnLetters
import GridQuery.Proofs.TextSlices
import GridQuery.Proofs.Occurrences
import GridQuery.Proofs.Registry
import GridQuery.Proofs.Progress
