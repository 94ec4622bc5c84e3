import OpenCLTree.Proofs.Tree.Level
import OpenCLTree.Proofs.Printing.Expr
import OpenCLTree.Proofs.Printing.Scene
import OpenCLTree.Grammar.Statement
import Mathlib.Data.List.Basic

namespace OpenCLTree

/-- Whether an expression can begin with a token of a kind. -/
def TokenKind.opensExpression : TokenKind → Bool
  | .identifier | .number => true
  | .punct mark => mark == .leftParen || Punctuator.signs.contains mark || Punctuator.steps.contains mark
  | _ => false

theorem Punctuator.signs_open : ∀ mark ∈ signs, (TokenKind.punct mark).opensExpression = true := by
  decide

theorem Punctuator.steps_open : ∀ mark ∈ steps, (TokenKind.punct mark).opensExpression = true := by
  decide

/-- Where there are no type names, nothing that begins an expression begins a type. -/
theorem Scopes.startsTypeName_of_opens {scopes : Scopes} {token : Token}
    (untyped : ∀ name, scopes.isType name = false) (opens : token.kind.opensExpression = true) :
    scopes.startsTypeName token = false := by
  unfold startsTypeName startsType
  split
  · rename_i kind
    simp [kind, TokenKind.opensExpression] at opens
  · rename_i kind
    simp [kind, TokenKind.opensExpression] at opens
  · split
    · exact untyped _
    · rename_i kind
      simp [kind, TokenKind.opensExpression] at opens
    · rfl

/-- Whether an expression that could go on with operators down to a level is over in front of
some tokens. -/
def Follows (level : Level) (rest : List Token) : Prop :=
  ∀ token ∈ rest.head?, suffixOperator? token.kind = none ∧
    ∀ operator ∈ Operator.find? .infixOp token.kind, operator.level < level

theorem Follows.mono {low high : Level} {rest : List Token} (follows : Follows low rest)
    (le : low ≤ high) : Follows high rest := fun token member =>
  ⟨(follows token member).1, fun operator found =>
    Level.lt_of_lt_of_le ((follows token member).2 operator found) le⟩

theorem Follows.mark {level : Level} {mark : Punctuator} {rest : List Token}
    (single : suffixOperator? (.punct mark) = none ∧
      ∀ operator ∈ Operator.find? .infixOp (.punct mark), operator.level < level) :
    Follows level (mark.leaf :: rest) := by
  rintro _ ⟨⟩
  exact single

namespace Operator

variable {operator : Operator} {left right : Level}

theorem Binds.rightLevel_le (binds : operator.Binds left right) : operator.rightLevel ≤ right := by
  unfold Binds at binds
  unfold rightLevel
  cases side : operator.associativity with
  | left =>
    rw [side] at binds
    exact Level.next_le binds.2
  | right =>
    rw [side] at binds
    exact binds.2

theorem Binds.le_left (binds : operator.Binds left right) : operator.level ≤ left := by
  unfold Binds at binds
  cases side : operator.associativity with
  | left =>
    rw [side] at binds
    exact binds.1
  | right =>
    rw [side] at binds
    exact Level.le_of_lt binds.1

theorem level_le_rightLevel (operator : Operator) : operator.level ≤ operator.rightLevel := by
  unfold rightLevel
  split
  · cases operator.level <;> decide
  · exact Level.le_refl _

theorem rightLevel_le_cast (listed : operator ∈ table) (isInfix : operator.fixity = .infixOp) :
    operator.rightLevel ≤ .cast := by
  obtain ⟨_, _, belowCast⟩ := find?_of_mem operator listed isInfix
  unfold rightLevel
  split
  · exact Level.next_le belowCast
  · exact Level.le_of_lt belowCast

theorem follows_leaf {level : Level} {rest : List Token} (listed : operator ∈ table)
    (isInfix : operator.fixity = .infixOp) (less : operator.level < level) :
    Follows level (operator.leaf :: rest) := by
  obtain ⟨found, noSuffix, _⟩ := find?_of_mem operator listed isInfix
  rintro _ ⟨⟩
  refine ⟨noSuffix, fun other found' => ?_⟩
  obtain rfl := Option.some.inj (found.symm.trans found')
  exact less

end Operator

namespace Expr

/-- The loosest operators that the last operand of an expression takes. -/
def lastLevel : Expr → Level
  | .infixed operator _ _ => operator.rightLevel
  | .conditional _ _ _ => .conditional
  | _ => .cast

variable {e : Expr}

/-- What an expression is followed by at its own level may follow its last operand. -/
theorem Valid.follows_last {rest : List Token} {level : Level} (valid : e.Valid)
    (follows : Follows level rest) (least : level ≤ e.level) (loose : level ≤ .cast) :
    Follows e.lastLevel rest := by
  cases valid with
  | infixed => exact follows.mono (Level.le_trans least (Operator.level_le_rightLevel _))
  | conditional => exact follows.mono least
  | _ => exact follows.mono loose

/-- An infix operator is looser than whatever its left operand ends with. -/
theorem Valid.level_lt_last {operator : Operator} {right : Level} (valid : e.Valid)
    (listed : operator ∈ Operator.table) (isInfix : operator.fixity = .infixOp)
    (binds : operator.Binds e.level right) : operator.level < e.lastLevel := by
  obtain ⟨_, _, belowCast⟩ := Operator.find?_of_mem _ listed isInfix
  have fromRight := Operator.associativity_of_mem operator listed isInfix
  cases valid with
  | @infixed inner _ _ innerListed innerInfix =>
    cases side : operator.associativity with
    | right =>
      simp only [Operator.Binds, side] at binds
      exact Level.lt_of_lt_of_le binds.1 (Operator.level_le_rightLevel inner)
    | left =>
      simp only [Operator.Binds, side] at binds
      have innerFromRight := Operator.associativity_of_mem inner innerListed innerInfix
      obtain ⟨_, _, innerBelow⟩ := Operator.find?_of_mem _ innerListed innerInfix
      simp only [lastLevel, Operator.rightLevel]
      cases innerSide : inner.associativity with
      | left =>
        exact Level.lt_of_le_of_lt binds.1
          (Level.lt_next (Level.lt_of_lt_of_le innerBelow (Level.le_suffix _)))
      | right =>
        refine Level.lt_of_le_of_ne binds.1 fun same => ?_
        rw [same, ← innerFromRight, innerSide, side] at fromRight
        cases fromRight.mpr rfl
  | conditional =>
    cases side : operator.associativity with
    | right =>
      simp only [Operator.Binds, side] at binds
      exact binds.1
    | left =>
      simp only [Operator.Binds, side] at binds
      refine Level.lt_of_le_of_ne binds.1 fun same => ?_
      cases side.symm.trans (fromRight.mpr (.inr same))
  | _ => exact belowCast

/-- An expression begins with a token that can open one. -/
theorem Valid.opens (valid : e.Valid) :
    ∃ first ∈ e.leaves.head?, first.kind.opensExpression = true := by
  induction valid with
  | name => exact ⟨_, by rw [leaves_name]; rfl, rfl⟩
  | number => exact ⟨_, by rw [leaves_number]; rfl, rfl⟩
  | parenthesized => exact ⟨_, by rw [leaves_parenthesized]; rfl, rfl⟩
  | cast => exact ⟨_, by rw [leaves_cast]; rfl, rfl⟩
  | signed listed =>
    exact ⟨_, by rw [leaves_prefixed]; rfl, Punctuator.signs_open _ listed⟩
  | stepped listed =>
    exact ⟨_, by rw [leaves_prefixed]; rfl, Punctuator.steps_open _ listed⟩
  | infixed _ _ _ _ _ _ ih _ | conditional _ _ _ _ _ ih _ _ | subscript _ _ _ ih _
  | call _ _ _ _ ih _ | member _ _ _ _ ih | updated _ _ _ ih =>
    obtain ⟨first, head, opens⟩ := ih
    simp only [leaves_infixed, leaves_conditional, leaves_subscript, leaves_call, leaves_member,
      leaves_updated]
    exact ⟨first, List.mem_head?_append_of_mem_head? head, opens⟩

theorem level_infixed_lt {operator : Operator} {left right : Expr} (listed : operator ∈ Operator.table)
    (isInfix : operator.fixity = .infixOp) : (infixed operator left right).level < .cast :=
  (Operator.find?_of_mem _ listed isInfix).2.2

/-- No prefix operator opens a postfix expression. -/
theorem Valid.opens_postfix (valid : e.Valid) (isSuffix : e.level = .suffix) :
    ∃ first ∈ e.leaves.head?, unaryOperator? first.kind = none := by
  induction valid with
  | name => exact ⟨_, by rw [leaves_name]; rfl, rfl⟩
  | number => exact ⟨_, by rw [leaves_number]; rfl, rfl⟩
  | parenthesized => exact ⟨_, by rw [leaves_parenthesized]; rfl, rfl⟩
  | infixed listed isInfix =>
    exact absurd (isSuffix ▸ level_infixed_lt listed isInfix) (by decide)
  | conditional | signed | stepped | cast => cases isSuffix
  | subscript inner _ _ ih _ | call inner _ _ _ ih _ | member inner _ _ _ ih | updated inner _ _ ih =>
    obtain ⟨first, head, noPrefix⟩ := ih inner
    simp only [leaves_subscript, leaves_call, leaves_member, leaves_updated]
    exact ⟨first, List.mem_head?_append_of_mem_head? head, noPrefix⟩

/-- Behind the parenthesis that opens an operand another expression begins. -/
theorem Valid.opens_inner (valid : e.Valid) (tight : .unary ≤ e.level) (rest : List Token)
    (opener : ∀ first ∈ e.leaves.head?, first.kind = .punct .leftParen) :
    ∃ second ∈ (e.leaves ++ rest)[1]?, second.kind.opensExpression = true := by
  induction valid generalizing rest with
  | name | number => cases opener _ rfl
  | parenthesized inner =>
    obtain ⟨first, head, opens⟩ := inner.opens
    obtain ⟨more, leaves⟩ := List.head?_eq_some_iff.mp head
    exact ⟨first, by simp [leaves], opens⟩
  | infixed listed isInfix =>
    exact absurd (Level.lt_of_le_of_lt tight (level_infixed_lt listed isInfix)) (by decide)
  | conditional => exact absurd tight (by decide : ¬ Level.unary ≤ .conditional)
  | cast => exact absurd tight (by decide : ¬ Level.unary ≤ .cast)
  | signed listed =>
    obtain rfl := TokenKind.punct.inj (opener _ (by rw [leaves_prefixed]; rfl))
    exact absurd listed (by decide)
  | stepped listed =>
    obtain rfl := TokenKind.punct.inj (opener _ (by rw [leaves_prefixed]; rfl))
    exact absurd listed (by decide)
  | subscript isSuffix _ _ ih _ | call isSuffix _ _ _ ih _ | member isSuffix _ _ _ ih
  | updated isSuffix _ _ ih =>
    simp only [leaves_subscript, leaves_call, leaves_member, leaves_updated, List.append_assoc] at opener ⊢
    refine ih (by rw [isSuffix]; decide) _ fun first head => ?_
    exact opener first (List.mem_head?_append_of_mem_head? head)

/-- Behind the name that opens an expression no colon stands. -/
theorem Valid.second_ne_colon (valid : e.Valid) (rest : List Token)
    (noColon : ∀ token ∈ rest.head?, token.kind ≠ .punct .colon)
    (opener : ∀ first ∈ e.leaves.head?, first.kind = .identifier) :
    ∀ second ∈ (e.leaves ++ rest)[1]?, second.kind ≠ .punct .colon := by
  induction valid generalizing rest with
  | name =>
    rw [leaves_name]
    simpa [← List.head?_eq_getElem?] using noColon
  | number | parenthesized | signed | stepped | cast => cases opener _ rfl
  | infixed listed isInfix _ _ _ _ ih _ =>
    simp only [leaves_infixed, List.append_assoc] at opener ⊢
    refine ih _ ?_ fun first head => opener first (List.mem_head?_append_of_mem_head? head)
    rintro _ ⟨⟩ colon
    obtain ⟨found, _⟩ := Operator.find?_of_mem _ listed isInfix
    rw [show Operator.token _ = .punct .colon from colon] at found
    cases found
  | member _ isMember _ _ ih =>
    simp only [leaves_member, List.append_assoc] at opener ⊢
    refine ih _ ?_ fun first head => opener first (List.mem_head?_append_of_mem_head? head)
    rintro _ ⟨⟩ colon
    obtain rfl | rfl := isMember <;> cases colon
  | updated _ listed _ ih =>
    simp only [leaves_updated, List.append_assoc] at opener ⊢
    refine ih _ ?_ fun first head => opener first (List.mem_head?_append_of_mem_head? head)
    rintro _ ⟨⟩ colon
    obtain rfl := TokenKind.punct.inj colon
    exact absurd listed (by decide)
  | conditional _ _ _ _ _ ih _ _ | subscript _ _ _ ih _ | call _ _ _ _ ih _ =>
    simp only [leaves_conditional, leaves_subscript, leaves_call, List.append_assoc] at opener ⊢
    refine ih _ ?_ fun first head => opener first (List.mem_head?_append_of_mem_head? head)
    rintro _ ⟨⟩ ⟨⟩

end Expr

end OpenCLTree
