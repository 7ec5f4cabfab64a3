/-! Powers of two and of ten, the steps of the numbers that machines and people write. -/

namespace ResourceQuery.Number

/-- A power of two. -/
def twoTo (power : Nat) : Nat := Nat.pow 2 power

/-- A power of ten. -/
def tenTo (power : Nat) : Nat := Nat.pow 10 power

theorem twoTo_pos (power : Nat) : 0 < twoTo power := Nat.pow_pos (by decide)

theorem tenTo_pos (power : Nat) : 0 < tenTo power := Nat.pow_pos (by decide)

end ResourceQuery.Number
