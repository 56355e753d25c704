/-!
# Search trees over ranges of code points

A character class is given as a list of disjoint closed ranges in ascending order
and searched as a tree of logarithmic depth. A range may carry a value, so that
the same tree serves for case mappings. The order of the list is taken as given.
-/

namespace SqlDdl.Text

/-- A closed range of code points and the value they share. -/
structure CodeRange (α : Type) where
  /-- Smallest member. -/
  first : Nat
  /-- Largest member. -/
  last : Nat
  /-- What is known of every member. -/
  value : α

/-- A binary search tree of ranges: those below stand left, those above right. -/
inductive RangeTree (α : Type) where
  | empty
  | node (below : RangeTree α) (range : CodeRange α) (above : RangeTree α)

namespace RangeTree

variable {α : Type}

/-- The range that holds a code point, if there is one. -/
def find? : RangeTree α → Nat → Option (CodeRange α)
  | .empty, _ => none
  | .node below range above, n =>
    if n < range.first then below.find? n
    else if range.last < n then above.find? n
    else some range

/-- Whether some range holds the code point. -/
def contains (tree : RangeTree α) (n : Nat) : Bool := (tree.find? n).isSome

/-- The tree of height at most `height` filled from the front of an ascending
list, and the ranges that found no place in it. -/
def fill : Nat → List (CodeRange α) → RangeTree α × List (CodeRange α)
  | 0, ranges => (.empty, ranges)
  | height + 1, ranges =>
    match fill height ranges with
    | (below, []) => (below, [])
    | (below, range :: rest) =>
      let (above, remaining) := fill height rest
      (.node below range above, remaining)

/-- The tree of an ascending list of ranges. -/
def ofList (ranges : List (CodeRange α)) : RangeTree α :=
  (fill (ranges.length.log2 + 1) ranges).1

/-- The tree of ranges that carry no value, each given by its two ends. -/
def ofPairs (pairs : List (Nat × Nat)) : RangeTree Unit :=
  ofList (pairs.map fun (first, last) => ⟨first, last, ()⟩)

end RangeTree

end SqlDdl.Text
