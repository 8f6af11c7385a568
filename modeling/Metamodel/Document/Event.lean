import Metamodel.OrderedMap

/-!
The events of a schema document: elements that start, with their attributes, and end.
-/

namespace Metamodel

inductive Event
  | opening (tag : String) (attributes : OrderedMap String)
  | closing
  deriving DecidableEq

end Metamodel
