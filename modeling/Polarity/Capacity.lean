import Polarity.Error

/-!
# Room for arrays

A value takes up at most `addressLimit` bytes.  The dimensions of an array are
bounded as well: the product of those that are not zero stays within the same
limit.  An array without entries takes up no room, so a matrix without columns
can have many more rows than there can be values, one for each row.
-/

namespace Polarity

def addressLimit : Nat := UInt64.size / 2 - 1

/-- Whether an array can have the given dimensions, whatever its entries are. -/
def countable (dimensions : List Nat) : Bool :=
  (dimensions.filter (· != 0)).foldl (· * ·) 1 ≤ addressLimit

/-- Whether an array of eight-byte scalars can have the given dimensions. -/
def addressable (dimensions : List Nat) : Bool :=
  countable dimensions && 8 * dimensions.foldl (· * ·) 1 ≤ addressLimit

def requireRoom (dimensions : List Nat) : Except Error Unit :=
  if addressable dimensions then .ok () else .error (.violation .capacity)

theorem requireRoom_eq_ok_iff (dimensions : List Nat) :
    requireRoom dimensions = .ok () ↔ addressable dimensions = true := by
  unfold requireRoom
  split
  · next hroom => simp [hroom]
  · next hroom => simp [hroom]

end Polarity
