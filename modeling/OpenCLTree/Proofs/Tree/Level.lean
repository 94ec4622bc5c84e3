import OpenCLTree.Syntax.Operator

namespace OpenCLTree

namespace Level

variable {a b c : Level}

@[simp]
theorem le_refl (level : Level) : level ≤ level :=
  Nat.le_refl level.rank

theorem le_trans (ab : a ≤ b) (bc : b ≤ c) : a ≤ c :=
  Nat.le_trans ab bc

theorem le_of_lt (less : a < b) : a ≤ b :=
  Nat.le_of_lt less

theorem lt_of_lt_of_le (ab : a < b) (bc : b ≤ c) : a < c :=
  Nat.lt_of_lt_of_le ab bc

theorem lt_of_le_of_lt (ab : a ≤ b) (bc : b < c) : a < c :=
  Nat.lt_of_le_of_lt ab bc

theorem lt_of_le_of_ne (le : a ≤ b) (other : a ≠ b) : a < b :=
  Nat.lt_of_le_of_ne le fun same => other (by cases a <;> cases b <;> first | rfl | cases same)

theorem not_lt : ¬ a < b ↔ b ≤ a :=
  Nat.not_lt

theorem not_le : ¬ a ≤ b ↔ b < a :=
  Nat.not_le

@[simp]
theorem comma_le (level : Level) : .comma ≤ level :=
  Nat.zero_le level.rank

theorem le_suffix (level : Level) : level ≤ .suffix := by
  cases level <;> decide

theorem next_le (less : a < b) : a.next ≤ b := by
  revert less
  cases a <;> cases b <;> decide

theorem lt_next (less : a < .suffix) : a < a.next := by
  revert less
  cases a <;> decide

theorem le_of_lt_next (less : a < b.next) : a ≤ b := by
  revert less
  cases a <;> cases b <;> decide

theorem lt_of_next_le (loose : a < .suffix) (le : a.next ≤ b) : a < b :=
  lt_of_lt_of_le (lt_next loose) le

end Level

end OpenCLTree
