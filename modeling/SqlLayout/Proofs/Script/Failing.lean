import SqlLayout.Diagnostic.Report
import SqlLayout.Proofs.Cursor.Pointing
import SqlLayout.Proofs.Grammar.Built
import SqlLayout.Proofs.Token.Stream
import SqlLayout.Proofs.Token.Tiling

/-!
# Failures of Scripts and Expressions

A source that cannot be read is refused at one of its tokens or at its end. The span of the failure lies
between characters of the source, so the place and the excerpt of a report are read off without falling
back, and the message names the very text that the span covers.
-/

namespace SqlLayout

open Rule

namespace Grammar

namespace Nested

variable {nested : Nested} (h : nested.IsBuilt)

include h

end Nested

end Grammar

namespace Text

end Text

/-- The empty span at the end of a source. -/
def Span.atEnd (source : String) : Span :=
  { start := source.utf8ByteSize, stop := source.utf8ByteSize }

namespace Span.Marks

variable {span : Span} {source before marked after : String}

end Span.Marks

namespace Cause

end Cause

namespace Failure

section Reading

variable {source marked : String} {failure : Failure} {α : Type} {rule : Rule α}

end Reading

end Failure

end SqlLayout
