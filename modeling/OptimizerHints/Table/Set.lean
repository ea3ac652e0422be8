import OptimizerHints.Sorted.Set
import OptimizerHints.Table

namespace OptimizerHints

abbrev TableSet := SortedSet TableRef

namespace TableSet

def identifiers (ts : TableSet) : List String := ts.toList.map TableRef.identifier

def joinIdentifiers (sep : String) (ts : TableSet) : String := sep.intercalate (identifiers ts)

def render (ts : TableSet) : String := "\x7b" ++ joinIdentifiers ", " ts ++ "\x7d"

end TableSet

end OptimizerHints
