import Mathlib.Data.List.Basic

/-!
# Rules over a document

A fragment of the rule language Rego.  A policy is evaluated over an input document; a
reference to something the document does not have is undefined, and an expression over
something undefined does not hold, unless it is negated.

* `Documents` — what is asked of the documents.
* `Term`, `Expr` — the expressions of a rule body, with `Expr.holds`.
* `Policy` — the rules for `allow`, which is false by default, and for `deny`.
* `Policy.allows_iff`, `Policy.denials_eq_nil_iff` — what a policy decides.
-/

namespace Rego

/-- Documents: their fields, the items of a collection, equality, and which is `false`. -/
structure Documents (V : Type) where
  field : V → String → Option V
  items : V → List V
  same : V → V → Bool
  isFalse : V → Bool

/-- A term of an expression. -/
inductive Term (V : Type) where
  /-- `input.a.b` -/
  | ref (path : List String)
  /-- `input.a.b[_]` -/
  | each (path : List String)
  | const (v : V)

/-- An expression of a rule body. -/
inductive Expr (V : Type) where
  /-- The term itself: it is defined, and not `false`. -/
  | term (t : Term V)
  /-- `not t` -/
  | not (t : Term V)
  /-- `s == t` -/
  | eq (s t : Term V)
  /-- `s != t` -/
  | ne (s t : Term V)
  /-- `t in {..}` -/
  | among (t : Term V) (set : List V)

/-- A policy: the bodies of `allow`, and those of `deny` with what they deny. -/
structure Policy (V : Type) where
  allow : List (List (Expr V))
  deny : List (String × List (Expr V))

variable {V : Type} (D : Documents V)

/-- What a path leads to. -/
def Documents.lookup (input : V) : List String → Option V
  | [] => some input
  | k :: path => (D.field input k).bind fun v => lookup v path

/-- The values a term can take. -/
def Term.values (input : V) : Term V → List V
  | ref path => (D.lookup input path).toList
  | each path => ((D.lookup input path).map D.items).getD []
  | const v => [v]

/-- Does the expression hold for some choice of values? -/
def Expr.holds (input : V) : Expr V → Bool
  | term t => (t.values D input).any fun v => !D.isFalse v
  | not t => (t.values D input).all fun v => D.isFalse v
  | eq s t => (s.values D input).any fun v => (t.values D input).any fun v' => D.same v v'
  | ne s t => (s.values D input).any fun v => (t.values D input).any fun v' => !D.same v v'
  | among t set => (t.values D input).any fun v => set.any fun v' => D.same v v'

/-- `allow`, which is false unless a rule makes it true. -/
def Policy.allows (policy : Policy V) (input : V) : Bool :=
  policy.allow.any fun body => body.all fun e => e.holds D input

/-- What the rules of `deny` give. -/
def Policy.denials (policy : Policy V) (input : V) : List String :=
  (policy.deny.filter fun rule => rule.2.all fun e => e.holds D input).map Prod.fst

variable {D} {input : V}

theorem Policy.allows_iff {policy : Policy V} : policy.allows D input = true ↔
    ∃ body ∈ policy.allow, ∀ e ∈ body, e.holds D input = true := by
  simp [allows]

theorem Policy.denials_eq_nil_iff {policy : Policy V} : policy.denials D input = [] ↔
    ∀ rule ∈ policy.deny, ¬ ∀ e ∈ rule.2, e.holds D input = true := by
  simp [denials, List.filter_eq_nil_iff]

/-! ## Terms that are defined, and terms that are not -/

@[simp] theorem Term.values_const (v : V) : (Term.const v).values D input = [v] := rfl

theorem Term.values_ref {path : List String} {v : V} (h : D.lookup input path = some v) :
    (Term.ref path).values D input = [v] := by
  simp [values, h]

/-- A reference that leads nowhere has no value. -/
theorem Term.values_undefined {path : List String} (h : D.lookup input path = none) :
    (Term.ref path).values D input = [] := by
  simp [values, h]

/-- Nothing undefined is among anything. -/
theorem Expr.not_holds_among {path : List String} (h : D.lookup input path = none) (set : List V) :
    (Expr.among (.ref path) set).holds D input = false := by
  simp [holds, Term.values_undefined h]

end Rego
