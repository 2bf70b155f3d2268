import SqlLayout.Command.Batch
import SqlLayout.Command.Options
import SqlLayout.Command.Run
import SqlLayout.Command.Workspace
import SqlLayout.Cursor.Basic
import SqlLayout.Cursor.Rule
import SqlLayout.Cursor.Session
import SqlLayout.Diagnostic.Basic
import SqlLayout.Diagnostic.Margin
import SqlLayout.Diagnostic.Report
import SqlLayout.Doc.Basic
import SqlLayout.Doc.Block
import SqlLayout.Doc.Form
import SqlLayout.Doc.Layout
import SqlLayout.Doc.Query
import SqlLayout.Doc.Statement
import SqlLayout.Failure
import SqlLayout.Grammar.Expr
import SqlLayout.Grammar.Name
import SqlLayout.Grammar.Nested
import SqlLayout.Grammar.Primary
import SqlLayout.Grammar.Query
import SqlLayout.Grammar.Statement
import SqlLayout.Grammar.Type
import SqlLayout.Grammar.Window
import SqlLayout.Keyword
import SqlLayout.Lineage.Graph
import SqlLayout.Lineage.Reference
import SqlLayout.Main
import SqlLayout.Outline.Basic
import SqlLayout.Outline.Query
import SqlLayout.Outline.Statement
import SqlLayout.Proofs.Command.Batch
import SqlLayout.Proofs.Grammar.Alternatives
import SqlLayout.Proofs.Cursor.Agreement
import SqlLayout.Proofs.Cursor.Step
import SqlLayout.Proofs.Grammar.Agreement
import SqlLayout.Proofs.Grammar.Pieces
import SqlLayout.Proofs.Grammar.Replay
import SqlLayout.Syntax.Constant
import SqlLayout.Syntax.Equality
import SqlLayout.Syntax.Name
import SqlLayout.Syntax.Node
import SqlLayout.Syntax.Operator
import SqlLayout.Syntax.Query
import SqlLayout.Syntax.Statement
import SqlLayout.Syntax.Type
import SqlLayout.Text.Ascii
import SqlLayout.Text.Blank
import SqlLayout.Text.Combining
import SqlLayout.Text.Position
import SqlLayout.Text.Printable
import SqlLayout.Text.Quoted
import SqlLayout.Text.Ranges
import SqlLayout.Text.Width
import SqlLayout.Token.Kind
import SqlLayout.Token.Lexer
import SqlLayout.Token.Scan
import SqlLayout.Token.Stream
import SqlLayout.Proofs.Layout.Line
import SqlLayout.Proofs.Layout.Block
import SqlLayout.Proofs.Layout.Compact
import SqlLayout.Proofs.Layout.Form
import SqlLayout.Proofs.Layout.Overhang
import SqlLayout.Proofs.Layout.Printing
import SqlLayout.Proofs.Layout.Query
import SqlLayout.Proofs.Layout.Script
import SqlLayout.Proofs.Token.Angles
import SqlLayout.Proofs.Token.Tiling
import SqlLayout.Proofs.Cursor.Ensures
import SqlLayout.Proofs.Sound.Clause
import SqlLayout.Proofs.Sound.Primary
import SqlLayout.Proofs.Cursor.Built
import SqlLayout.Proofs.Grammar.Built
import SqlLayout.Proofs.Script.Alike
import SqlLayout.Proofs.Script.Comments
import SqlLayout.Proofs.Sound.Expr
import SqlLayout.Proofs.Sound.Query
import SqlLayout.Proofs.Sound.Statement
import SqlLayout.Proofs.Layout.Phrase
import SqlLayout.Proofs.Layout.Words
import SqlLayout.Proofs.Layout.Legible
import SqlLayout.Proofs.Script.Layouts
import SqlLayout.Proofs.Nesting.Clause
import SqlLayout.Proofs.Nesting.Expr
import SqlLayout.Proofs.Nesting.Statement
import SqlLayout.Proofs.Reading.Loop
import SqlLayout.Proofs.Reading.Operators
import SqlLayout.Proofs.Reading.Levels
import SqlLayout.Proofs.Reading.Primary
import SqlLayout.Proofs.Reading.Expr
import SqlLayout.Proofs.Reading.Type
import SqlLayout.Proofs.Lineage.Reduction
import SqlLayout.Proofs.Token.Separated
import SqlLayout.Proofs.Script.Verbatim
import SqlLayout.Proofs.Token.Recased
import SqlLayout.Proofs.Cursor.Echo
import SqlLayout.Proofs.Echo.Name
import SqlLayout.Proofs.Echo.Expr
import SqlLayout.Proofs.Echo.Statement
import SqlLayout.Proofs.Script.LetterCase
import SqlLayout.Proofs.Lineage.Acyclic
import SqlLayout.Proofs.Script.WellFormed
import SqlLayout.Proofs.Syntax.Holds
import SqlLayout.Proofs.Lineage.Scoping
import SqlLayout.Proofs.Cursor.Within
import SqlLayout.Proofs.Cursor.Closed
import SqlLayout.Proofs.Grammar.Closed
import SqlLayout.Proofs.Cursor.Local
import SqlLayout.Proofs.Token.Newline
import SqlLayout.Proofs.Script.Item
import SqlLayout.Proofs.Script.Concat
import SqlLayout.Proofs.Cursor.Pointing
import SqlLayout.Proofs.Script.Failing
import SqlLayout.Proofs.Token.Closing
import SqlLayout.Proofs.Outline.Label
import SqlLayout.Proofs.Outline.Render
import SqlLayout.Proofs.Outline.Quoted
import SqlLayout.Proofs.Outline.Words
import SqlLayout.Proofs.Outline.Parts
import SqlLayout.Proofs.Outline.Choice
import SqlLayout.Proofs.Outline.Shape
import SqlLayout.Proofs.Outline.Word
import SqlLayout.Proofs.Outline.Readable
import SqlLayout.Proofs.Outline.Known
import SqlLayout.Proofs.Outline.Expr
import SqlLayout.Proofs.Outline.Query
import SqlLayout.Proofs.Outline.Statement
import SqlLayout.Proofs.Text.Escape
import SqlLayout.Proofs.Lineage.Grouping
import SqlLayout.Proofs.Lineage.Drawing
import SqlLayout.Proofs.Lineage.Order
import SqlLayout.Proofs.Token.Literal
import SqlLayout.Proofs.Syntax.Place
import SqlLayout.Proofs.Syntax.Tour
import SqlLayout.Proofs.Layout.Plain
import SqlLayout.Proofs.Token.Inside
import SqlLayout.Proofs.Script.Standalone
import SqlLayout.Proofs.Script.Flat
import SqlLayout.Proofs.Script.Tidy
import SqlLayout.Proofs.Layout.Measure
import SqlLayout.Proofs.Layout.Inline
import SqlLayout.Proofs.Layout.Measured
import SqlLayout.Proofs.Script.Measured
import SqlLayout.Proofs.Cursor.Procedure
import SqlLayout.Proofs.Layout.Room
import SqlLayout.Proofs.Text.Position
import SqlLayout.Proofs.Cursor.Backtracking
import SqlLayout.Proofs.Cursor.Replaying
import SqlLayout.Proofs.Cursor.Session
