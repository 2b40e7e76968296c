/-!
# Progress in percent

Counts are 64-bit words, and their product with a hundred is taken in 64 bits.
-/

namespace StructUnfold.Progress

/-- The share of `done` in `total`, in percent; of nothing, all is done. -/
def percentage (done total : UInt64) : UInt32 :=
  if total = 0 then 100 else (min done total * 100 / total).toUInt32

end StructUnfold.Progress
