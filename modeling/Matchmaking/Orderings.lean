/-!
# Orderings

In what order parties are put into teams decides how well they fill them, so
several orders are tried. An order lists the numbers below a length. Some numbers
at the front stay where they are; the others, the tail, first rotate one after
the other to the front, and then go through their permutations in lexicographic
order. There are no more orders than a cap.

Orders are made one by one (`Orderings.next?`), as most of them are never looked
at, and so are the numbers of an order; `Orderings.take` lists them.
-/

namespace Matchmaking

/-- The next list in lexicographic order that has the same numbers, if there is
    one. -/
def nextPermutation? : List Nat → Option (List Nat)
  | [] => none
  | x :: xs =>
    match nextPermutation? xs with
    | some ys => some (x :: ys)
    | none =>
      -- The numbers of `xs` do not increase, so those above `x` come first.
      match xs.takeWhile (x < ·) with
      | [] => none
      | y :: ys =>
        let upper := y :: ys
        some (upper.getLast (List.cons_ne_nil y ys) ::
          (upper.dropLast ++ x :: xs.dropWhile (x < ·)).reverse)

/-- A list with its first entries moved to its end. -/
def rotate (xs : List Nat) (n : Nat) : List Nat := xs.drop n ++ xs.take n

/-- The orders that are still to come. -/
structure Orderings where
  /-- How many numbers there are. -/
  length : Nat
  /-- How many of them stay. -/
  pinned : Nat
  /-- How many rotations have been made. -/
  rotations : Nat
  /-- The last permutation of the tail that was made, if one was. -/
  permutation : Option (List Nat)
  deriving DecidableEq

namespace Orderings

/-- The orders of the numbers below `length`, of which the first `pinned` ones
    stay. -/
def new (length pinned : Nat) : Orderings := ⟨length, min pinned length, 0, none⟩

/-- The numbers that stay. -/
def fixed (o : Orderings) : List Nat := List.range o.pinned

/-- How many numbers do not stay. -/
def tailLength (o : Orderings) : Nat := o.length - o.pinned

/-- The numbers that do not stay. -/
def tail (o : Orderings) : List Nat := List.range' o.pinned o.tailLength

/-- The next order, and the orders after it. -/
def next? (o : Orderings) : Option (List Nat × Orderings) :=
  if o.rotations < max o.tailLength 1 then
    some (o.fixed ++ rotate o.tail o.rotations, { o with rotations := o.rotations + 1 })
  else
    (nextPermutation? (o.permutation.getD o.tail)).map fun p =>
      (o.fixed ++ p, { o with permutation := some p })

/-- The next orders, at most as many as a cap. -/
def take : Nat → Orderings → List (List Nat)
  | 0, _ => []
  | cap + 1, o =>
    match o.next? with
    | none => []
    | some (order, rest) => order :: take cap rest

end Orderings

end Matchmaking
