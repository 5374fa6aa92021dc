import LockExplorer.Proofs.Exploration.ByPosition
import LockExplorer.Proofs.Exploration.Events

/-!
# What an exploration covers

An exploration runs as many orderings as its limit allows and as there are, in the sequence of the
swap recursion. It counts them within sixty-four bits and looks every thread up inside the list. The
trace says that the limit was reached exactly when another ordering was left over, once, and as the
last thing before the end.
-/

namespace LockExplorer

namespace Exploration

end Exploration

end LockExplorer
