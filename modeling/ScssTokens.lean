import ScssTokens.Text.Offset
import ScssTokens.Text.Column
import ScssTokens.Unicode.RangeTable
import ScssTokens.Unicode.WhiteSpace
import ScssTokens.Unicode.Alphabetic
import ScssTokens.Unicode.Alphanumeric
import ScssTokens.Token.Kind
import ScssTokens.Token.Span
import ScssTokens.Candidates.Basic
import ScssTokens.Candidates.Symbols
import ScssTokens.Candidates.Printer
import ScssTokens.Stream.Basic
import ScssTokens.Stream.Cursor
import ScssTokens.Stream.Tape
import ScssTokens.Decision.Basic
import ScssTokens.Decision.Selector
import ScssTokens.Decision.Variable
import ScssTokens.Decision.Quoted
import ScssTokens.Decision.Apply
import ScssTokens.Decision.Priority
import ScssTokens.Scan
import ScssTokens.ScanState
import ScssTokens.Proofs.Decision.Shape
import ScssTokens.Proofs.Decision.OnePass
import ScssTokens.Proofs.Decision.Marks
import ScssTokens.Proofs.Decision.Anatomy
import ScssTokens.Proofs.Segment.Length
import ScssTokens.Proofs.Segment.Literal
import ScssTokens.Proofs.Scan.Extent
import ScssTokens.Proofs.Scan.Priority
import ScssTokens.Proofs.Scan.Effect
import ScssTokens.Proofs.Scan.Refinement
import ScssTokens.Proofs.Scan.Calls
import ScssTokens.Proofs.Scan.Chain
import ScssTokens.Proofs.Scan.Guarded
import ScssTokens.Proofs.Scan.Prefix
import ScssTokens.Proofs.Scan.Space
import ScssTokens.Proofs.Stream.Marks
import ScssTokens.Proofs.Decision.Columns
import ScssTokens.Proofs.Scan.Shift
import ScssTokens.Proofs.Scan.Apply
import ScssTokens.Proofs.Scan.Values
import ScssTokens.Proofs.Scan.Declined
import ScssTokens.Proofs.Segment.End
import ScssTokens.Proofs.Scan.Bookkeeping
import ScssTokens.Proofs.Scan.Variable
import ScssTokens.Proofs.Scan.Selector
import ScssTokens.Proofs.Scan.PseudoClass
import ScssTokens.Proofs.Scan.Lookahead
import ScssTokens.Proofs.Candidates.Kinds
