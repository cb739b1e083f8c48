/-!
# Pages

Lists are read in pages that are counted from one.
-/

namespace CrmAutomation

/-- The number of rows before a page; a page below the first counts as the first. -/
def pageOffset (page perPage : Int) : Int := (max page 1 - 1) * perPage

end CrmAutomation
