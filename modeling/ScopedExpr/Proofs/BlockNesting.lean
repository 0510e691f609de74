/-!
# Open blocks

Steps open blocks, close them, or do neither. Along a list of steps the number of open
blocks is counted from those that are open before it; a list that would close one more is
not counted. So a list that leads from no open block to none closes all blocks that it
opens, and no block from before it.
-/

namespace ScopedExpr

inductive BlockMark where
  | opening
  | closing
  | neutral
deriving DecidableEq

/-- The number of blocks that are open behind some steps, when `n` are open before them. -/
def openBlocks? (n : Nat) : List BlockMark → Option Nat
  | [] => some n
  | .opening :: marks => openBlocks? (n + 1) marks
  | .closing :: marks =>
    match n with
    | 0 => none
    | n + 1 => openBlocks? n marks
  | .neutral :: marks => openBlocks? n marks

theorem openBlocks?_append (n : Nat) (a b : List BlockMark) :
    openBlocks? n (a ++ b) = (openBlocks? n a).bind fun m => openBlocks? m b := by
  fun_induction openBlocks? n a with
  | case1 n => rfl
  | case2 n marks ih => exact ih
  | case3 marks => rfl
  | case4 marks n ih => exact ih
  | case5 n marks ih => exact ih

end ScopedExpr
