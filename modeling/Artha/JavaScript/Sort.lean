import Artha.Binary64.Arithmetic

/-!
# `Array.prototype.sort`

The sort is stable: for a comparison that is a total preorder the result is the sorted permutation
that keeps tied elements in their order (`StableSort`), whatever algorithm a browser uses; here it
is a merge sort.  A comparison returns a number, of which only the sign counts.
-/

namespace Artha.JavaScript

open Binary64

variable {α : Type}

/-- `a` need not come after `b`. -/
def notAfter (compare : α → α → Number) (a b : α) : Bool := !Number.lt (.finite 0) (compare a b)

/-- `l.sort(compare)`. -/
def sort (compare : α → α → Number) (l : List α) : List α := l.mergeSort (notAfter compare)

/-- Neither of two elements has to come before the other. -/
def tied (le : α → α → Bool) (a b : α) : Bool := le a b && le b a

/-- `r` is `l` in the order `le`, with the order of `l` among tied elements. -/
structure StableSort (le : α → α → Bool) (l r : List α) : Prop where
  perm : r.Perm l
  sorted : r.Pairwise fun a b => le a b = true
  stable : ∀ a, r.filter (tied le a) = l.filter (tied le a)

/-- The comparison is a total preorder. -/
structure TotalPreorder (le : α → α → Bool) : Prop where
  trans : ∀ a b c, le a b = true → le b c = true → le a c = true
  total : ∀ a b, (le a b || le b a) = true

/-- An order read backwards. -/
theorem TotalPreorder.swap {le : α → α → Bool} (h : TotalPreorder le) :
    TotalPreorder fun a b => le b a where
  trans a b c hab hbc := h.trans c b a hbc hab
  total a b := h.total b a

theorem stableSort_sort {compare : α → α → Number} (h : TotalPreorder (notAfter compare))
    (l : List α) : StableSort (notAfter compare) l (sort compare l) := by
  refine ⟨List.mergeSort_perm l _, List.pairwise_mergeSort h.trans h.total l, ?_⟩
  intro a
  -- the tied elements of `l` are sorted as they stand, and stay a sublist
  have hsorted : (l.filter (tied (notAfter compare) a)).Pairwise (notAfter compare · ·) := by
    rw [List.pairwise_filter]
    refine List.pairwise_of_forall ?_
    intro b c hb hc
    rw [tied, Bool.and_eq_true] at hb hc
    exact h.trans b a c hb.2 hc.1
  have hsub := List.sublist_mergeSort h.trans h.total hsorted List.filter_sublist
  have hself : (l.filter (tied (notAfter compare) a)).filter (tied (notAfter compare) a) =
      l.filter (tied (notAfter compare) a) := by
    rw [List.filter_filter]
    simp
  have htied := hsub.filter (tied (notAfter compare) a)
  rw [hself] at htied
  refine (htied.eq_of_length ?_).symm
  exact ((List.mergeSort_perm l (notAfter compare)).filter _).length_eq.symm

end Artha.JavaScript
