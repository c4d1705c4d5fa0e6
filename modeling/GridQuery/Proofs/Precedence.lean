import GridQuery.Proofs.Formed

/-!
The tree of operands with operators between them. Products are made first, each from left to right, and
then their sums from left to right. An operator that takes the tighter ones behind its operand to its
right side makes the same tree.
-/

namespace GridQuery
set_option autoImplicit false

open GridQuery.Parser

/-- The operators that make products; the others make sums. -/
def BinaryOp.isFactor : BinaryOp → Bool
  | mul | div | mod => true
  | add | sub | concat => false

theorem BinaryOp.power_of_factor {op : BinaryOp} (h : op.isFactor = true) : op.power = 5 := by
  cases op <;> first | rfl | cases h

theorem BinaryOp.power_of_sum {op : BinaryOp} (h : op.isFactor = false) : op.power = 3 := by
  cases op <;> first | rfl | cases h

namespace Expr

/-- The product at the front of a sequence, and the products behind it with their sum operators. -/
def products (first : Expr) : List (BinaryOp × Expr) → Expr × List (BinaryOp × Expr)
  | [] => (first, [])
  | (op, e) :: others =>
    if op.isFactor then products (.binary op first e) others
    else
      let r := products e others
      (first, (op, r.1) :: r.2)

/-- The tree of a sequence of operands, the first one and the others behind their operators. -/
def ofSequence (first : Expr) (others : List (BinaryOp × Expr)) : Expr :=
  let r := first.products others
  r.2.foldl (fun sum t => .binary t.1 sum t.2) r.1

@[simp] theorem ofSequence_nil (e : Expr) : e.ofSequence [] = e := rfl

example (a b c d : Expr) : a.ofSequence [(.sub, b), (.mul, c), (.add, d)] =
    .binary .add (.binary .sub a (.binary .mul b c)) d := rfl

variable {op : BinaryOp} {e f : Expr} {fs others : List (BinaryOp × Expr)}

theorem products_factor (h : op.isFactor = true) :
    e.products ((op, f) :: others) = (Expr.binary op e f).products others := by
  rw [products, if_pos h]

theorem products_sum (h : op.isFactor = false) : e.products ((op, f) :: others) =
    (e, (op, (f.products others).1) :: (f.products others).2) := by
  rw [products, h, if_neg Bool.false_ne_true]

theorem ofSequence_factor (h : op.isFactor = true) :
    e.ofSequence ((op, f) :: others) = (Expr.binary op e f).ofSequence others := by
  rw [ofSequence, products_factor h, ofSequence]

/-- A product at the front is one operand of what follows it. -/
theorem products_append (h : ∀ o ∈ fs, o.1.isFactor = true) (e : Expr) :
    e.products (fs ++ others) = (e.ofSequence fs).products others := by
  induction fs generalizing e with
  | nil => rfl
  | cons o fs ih =>
    obtain ⟨ho, hfs⟩ := List.forall_mem_cons.1 h
    rw [List.cons_append, products_factor ho, ofSequence_factor ho, ih hfs]

/-- Without an operator of products behind it, an operand is a product alone. -/
theorem exists_terms (h : ∀ o ∈ others.head?, o.1.isFactor = false) :
    ∃ terms, ∀ e : Expr, e.products others = (e, terms) := by
  cases others with
  | nil => exact ⟨[], fun _ => rfl⟩
  | cons o others =>
    obtain ⟨op, f⟩ := o
    exact ⟨_, fun e => products_sum (h _ rfl)⟩

theorem ofSequence_sum (hop : op.isFactor = false) (h : ∀ o ∈ others.head?, o.1.isFactor = false) :
    e.ofSequence ((op, f) :: others) = (Expr.binary op e f).ofSequence others := by
  obtain ⟨terms, hterms⟩ := exists_terms h
  rw [ofSequence, products_sum hop, hterms, ofSequence, hterms]
  rfl

/-- An operator takes the operands behind it whose operators bind more tightly, and its tree is the first
operand of the others. -/
theorem ofSequence_step (hfs : ∀ o ∈ fs, op.power < o.1.power)
    (h : ∀ o ∈ others.head?, o.1.power ≤ op.power) :
    e.ofSequence ((op, f) :: (fs ++ others)) =
      (Expr.binary op e (f.ofSequence fs)).ofSequence others := by
  cases hop : op.isFactor with
  | true =>
    -- Nothing binds more tightly than a product.
    have hnil : fs = [] := List.eq_nil_iff_forall_not_mem.2 fun o ho => by
      have hlt := hfs o ho
      rw [BinaryOp.power_of_factor hop] at hlt
      cases hsum : o.1.isFactor with
      | true => rw [BinaryOp.power_of_factor hsum] at hlt; omega
      | false => rw [BinaryOp.power_of_sum hsum] at hlt; omega
    rw [hnil, List.nil_append, ofSequence_factor hop, ofSequence_nil]
  | false =>
    rw [BinaryOp.power_of_sum hop] at hfs h
    have hfactors : ∀ o ∈ fs, o.1.isFactor = true := by
      intro o ho
      have hlt := hfs o ho
      by_contra hsum
      rw [BinaryOp.power_of_sum (Bool.eq_false_iff.2 hsum)] at hlt
      omega
    have hsums : ∀ o ∈ others.head?, o.1.isFactor = false := by
      intro o ho
      have hle := h o ho
      by_contra hfactor
      rw [BinaryOp.power_of_factor (Bool.not_eq_false _ ▸ hfactor)] at hle
      omega
    have hfront : e.products ((op, f) :: (fs ++ others)) =
        e.products ((op, f.ofSequence fs) :: others) := by
      rw [products_sum hop, products_append hfactors, products_sum hop]
    rw [ofSequence, hfront]
    exact ofSequence_sum hop hsums

end Expr

end GridQuery
