import Mathlib.Data.List.Basic

/-!
# Blocks of a list

Something that cuts pieces out of a stream does it well if the pieces are blocks
of the stream: contiguous, apart from each other, and in its order.
`Foundation.Blocks l bs` says that `l` consists of the blocks `bs`, one after the
other, with gaps between them. Whoever cuts goes from left to right, so a list of
blocks grows at its end, by `Foundation.Blocks.block` and `Foundation.Blocks.gap`.
-/

namespace Foundation

/-- The list consists of the blocks, in their order, and of gaps between them. -/
inductive Blocks {α : Type} : List α → List (List α) → Prop
  /-- Nothing at all. -/
  | nil : Blocks [] []
  /-- A gap follows. -/
  | gap {l : List α} {bs : List (List α)} (g : List α) : Blocks l bs → Blocks (l ++ g) bs
  /-- A block follows. -/
  | block {l : List α} {bs : List (List α)} (b : List α) : Blocks l bs → Blocks (l ++ b) (bs ++ [b])

end Foundation
