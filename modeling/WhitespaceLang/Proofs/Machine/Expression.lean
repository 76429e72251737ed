import WhitespaceLang.Proofs.Machine.Operands

/-!
Arithmetic expressions and the instructions that evaluate them: the operands of an operation from
left to right, then the operation. An expression has one exact value, unless a divisor in it is 0.
-/

namespace WhitespaceLang
namespace Arith

/-- The exact results of the operations. A quotient goes with a remainder that lies between 0 and
the divisor. -/
inductive Yields (left right : Int) : Arith → Int → Prop
  | add : Yields left right .add (left + right)
  | sub : Yields left right .sub (left - right)
  | mul : Yields left right .mul (left * right)
  | div {quotient remainder : Int} (h : Divides left right quotient remainder) :
      Yields left right .div quotient
  | mod {quotient remainder : Int} (h : Divides left right quotient remainder) :
      Yields left right .mod remainder

theorem yields_iff {op : Arith} {a b v : Int} : Yields a b op v ↔ op.apply a b = some v := by
  cases op with
  | add | sub | mul => exact ⟨fun h => by cases h; rfl, fun h => by cases h; constructor⟩
  | div =>
      rw [apply_div_eq_some_iff]
      exact ⟨fun h => by cases h with | div h => exact ⟨_, h⟩, fun ⟨_, h⟩ => .div h⟩
  | mod =>
      rw [apply_mod_eq_some_iff]
      exact ⟨fun h => by cases h with | mod h => exact ⟨_, h⟩, fun ⟨_, h⟩ => .mod h⟩

/-- Only a division by 0 has no result. -/
theorem apply_eq_none_iff {op : Arith} {a b : Int} :
    op.apply a b = none ↔ b = 0 ∧ (op = .div ∨ op = .mod) := by
  cases op <;> simp [apply]

end Arith

inductive Expr where
  | literal (n : Int)
  | node (op : Arith) (left right : Expr)

namespace Expr

/-- The instructions of an expression in postorder. -/
def code : Expr → List Instr
  | literal n => [.push n]
  | node op left right => left.code ++ right.code ++ [.arith op]

/-- A program that prints the value of an expression. -/
def program (e : Expr) : List Instr := e.code ++ [.printNumber]

/-- The exact value of an expression in which no divisor is 0. -/
inductive Value : Expr → Int → Prop
  | literal (n : Int) : Value (literal n) n
  | node {op : Arith} {left right : Expr} {a b v : Int} (hl : left.Value a) (hr : right.Value b)
      (h : op.Yields a b v) : Value (node op left right) v

/-- The first operation in postorder whose divisor is 0. -/
inductive FirstZero : Expr → Arith → Prop
  | left {op first : Arith} {left right : Expr} (hl : left.FirstZero first) :
      FirstZero (node op left right) first
  | right {op first : Arith} {left right : Expr} {a : Int} (hl : left.Value a)
      (hr : right.FirstZero first) : FirstZero (node op left right) first
  | here {op : Arith} {left right : Expr} {a : Int} (hl : left.Value a) (hr : right.Value 0)
      (hop : op = .div ∨ op = .mod) : FirstZero (node op left right) op

theorem Value.unique {e : Expr} {v v' : Int} (h : e.Value v) (h' : e.Value v') : v = v' := by
  induction h generalizing v' with
  | literal n =>
      cases h'
      rfl
  | node _ _ hv ihl ihr =>
      cases h' with
      | node hl' hr' hv' =>
          rw [← ihl hl', ← ihr hr', Arith.yields_iff] at hv'
          rw [Arith.yields_iff] at hv
          exact Option.some.inj (hv.symm.trans hv')

theorem FirstZero.op_eq {e : Expr} {op : Arith} (h : e.FirstZero op) : op = .div ∨ op = .mod := by
  induction h with
  | left _ ih => exact ih
  | right _ _ ih => exact ih
  | here _ _ hop => exact hop

theorem value_or_firstZero (e : Expr) : (∃ v, e.Value v) ∨ ∃ op, e.FirstZero op := by
  induction e with
  | literal n => exact .inl ⟨n, .literal n⟩
  | node op left right ihl ihr =>
      obtain ⟨a, hl⟩ | ⟨first, hl⟩ := ihl
      · obtain ⟨b, hr⟩ | ⟨first, hr⟩ := ihr
        · cases hv : op.apply a b with
          | some v => exact .inl ⟨v, .node hl hr (Arith.yields_iff.mpr hv)⟩
          | none =>
              obtain ⟨rfl, hop⟩ := Arith.apply_eq_none_iff.mp hv
              exact .inr ⟨op, .here hl hr hop⟩
        · exact .inr ⟨first, .right hl hr⟩
      · exact .inr ⟨first, .left hl⟩

/-- An expression has a value or a first division by 0, and not both. -/
theorem Value.not_firstZero {e : Expr} {v : Int} {op : Arith} (h : e.Value v) :
    ¬ e.FirstZero op := by
  induction h generalizing op with
  | literal n => exact nofun
  | node hl hr hv ihl ihr =>
      intro h
      cases h with
      | left h => exact ihl h
      | right _ h => exact ihr h
      | here _ hr' hop =>
          rw [hr.unique hr', Arith.yields_iff, Arith.apply_eq_none_iff.mpr ⟨rfl, hop⟩] at hv
          cases hv

theorem FirstZero.unique {e : Expr} {op op' : Arith} (h : e.FirstZero op) (h' : e.FirstZero op') :
    op = op' := by
  induction h with
  | left hl ih =>
      cases h' with
      | left hl' => exact ih hl'
      | right ha' _ => exact absurd hl ha'.not_firstZero
      | here ha' _ _ => exact absurd hl ha'.not_firstZero
  | right ha hr ih =>
      cases h' with
      | left hl' => exact absurd hl' ha.not_firstZero
      | right _ hr' => exact ih hr'
      | here _ hb' _ => exact absurd hr hb'.not_firstZero
  | here ha hb _ =>
      cases h' with
      | left hl' => exact absurd hl' ha.not_firstZero
      | right _ hr' => exact absurd hr' hb.not_firstZero
      | here => rfl

end Expr
end WhitespaceLang
