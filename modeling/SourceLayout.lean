import SourceLayout.Position
import SourceLayout.Span
import SourceLayout.Span.Join
import SourceLayout.Span.Shift
import SourceLayout.Tree.Kind
import SourceLayout.Tree.Node
import SourceLayout.Fault
import SourceLayout.Logged
import SourceLayout.Text.Lines
import SourceLayout.Text.Quoted
import SourceLayout.Value
import SourceLayout.Value.Literal
import SourceLayout.DocComment
import SourceLayout.Paragraph
import SourceLayout.Layout
import SourceLayout.Random.Draw
import SourceLayout.Random.Twister
import SourceLayout.Samples.Text
import SourceLayout.Samples.Module
import SourceLayout.Proofs.Text.Lines
import SourceLayout.Proofs.Text.Numeral
import SourceLayout.Proofs.Text.Quoted
import SourceLayout.Proofs.Text.Blanks
import SourceLayout.Proofs.DocComment.NormalForm
import SourceLayout.Proofs.Position.Scan
import SourceLayout.Proofs.Span.Blocks
import SourceLayout.Proofs.Paragraph.Partition
import SourceLayout.Proofs.DocComment.Comment
import SourceLayout.Proofs.Tree.Pointwise
import SourceLayout.Proofs.Tree.Outline
import SourceLayout.Proofs.Layout.Sections
import SourceLayout.Proofs.Layout.Reading
import SourceLayout.Proofs.Layout.Pieces
import SourceLayout.Proofs.Layout.Reseating
import SourceLayout.Proofs.DocComment.Rereading
import SourceLayout.Proofs.DocComment.Content
import SourceLayout.Proofs.DocComment.Unseen
import SourceLayout.Proofs.Span.Enclosing
import SourceLayout.Proofs.Layout.Dependence
import SourceLayout.Proofs.Paragraph.Spacing
import SourceLayout.Proofs.Layout.Contents
import SourceLayout.Proofs.Layout.Depth
import SourceLayout.Proofs.Layout.TrailingBlanks
import SourceLayout.Proofs.Layout.EmptyLines
import SourceLayout.Proofs.Layout.Outcome
import SourceLayout.Proofs.Random.Draw
import SourceLayout.Proofs.Samples.Module
import SourceLayout.Proofs.Samples.Placement
import SourceLayout.Proofs.Layout.Heads
import SourceLayout.Proofs.Samples.Text
import SourceLayout.Proofs.Samples.Layout
import SourceLayout.Proofs.Paragraph.Uniqueness
import SourceLayout.Proofs.Paragraph.Regrouping
import SourceLayout.Proofs.Layout.ImportBlocks
import SourceLayout.Proofs.Span.Shifting
import SourceLayout.Proofs.Span.Associativity
import SourceLayout.Proofs.Span.Coordinates
import SourceLayout.Proofs.Span.Outline
