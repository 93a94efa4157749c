import Phrasebook.Formula.Basic

/-!
What a rendering may refer to: the parameters of the call, a source that answers for all other
variables, and how deep the expansion of phrases within phrases has come. A variable with parameters
of its own sees them before those of the call.
-/

namespace Phrasebook

structure Params where
  entries : List (String × Value)

namespace Params

def empty : Params := ⟨[]⟩

instance : Inhabited Params := ⟨empty⟩

def get? (params : Params) (name : String) : Option Value :=
  (params.entries.find? fun entry => entry.1 = name).map (·.2)

def insert (params : Params) (name : String) (value : Value) : Params :=
  ⟨(name, value) :: params.entries.filter fun entry => entry.1 ≠ name⟩

/-- Of several values for one name the last stays. -/
def ofList (pairs : List (String × Value)) : Params :=
  pairs.foldl (fun params pair => params.insert pair.1 pair.2) empty

def size (params : Params) : Nat := params.entries.length

@[simp] theorem get?_empty (name : String) : empty.get? name = none := rfl

theorem get?_insert_self (params : Params) (name : String) (value : Value) :
    (params.insert name value).get? name = some value := by
  simp [get?, insert]

theorem get?_insert_of_ne (params : Params) {name other : String} (value : Value)
    (distinct : other ≠ name) : (params.insert name value).get? other = params.get? other := by
  have kept : ∀ entry : String × Value,
      (entry.1 ≠ name ∧ entry.1 = other) ↔ entry.1 = other := by
    rintro ⟨found, _⟩
    exact ⟨And.right, fun same => ⟨same ▸ distinct, same⟩⟩
  simp only [get?, insert, List.find?_cons, Ne.symm distinct, decide_false, List.find?_filter,
    decide_eq_true_eq, kept]

end Params

structure Arguments where
  inline : List Param
  ambient : Params

namespace Arguments

def inlineValue? (key : String) : List Param → Option String
  | [] => none
  | .named name value :: rest => if name = key then some value else inlineValue? key rest
  | .flag _ :: rest => inlineValue? key rest

def get? (arguments : Arguments) (key : String) : Option Value :=
  match inlineValue? key arguments.inline with
  | some value => some (Value.ofLiteral value)
  | none => arguments.ambient.get? key

def flagName? : Param → Option String
  | .flag name => some name
  | .named _ _ => none

def flags (arguments : Arguments) : List String :=
  arguments.inline.filterMap flagName?

def hasFlag (arguments : Arguments) (name : String) : Bool :=
  arguments.flags.contains name

end Arguments

/-- Answers for variables: with a value, with nothing, or by breaking down with a message. -/
abbrev Source := String → Arguments → Except String (Option Value)

def Source.silent : Source := fun _ _ => .ok none

structure Context where
  depth : Nat
  maxDepth : Nat
  params : Params
  source : Source

namespace Context

def defaultMaxDepth : Nat := 16

def new (params : Params) : Context := ⟨0, defaultMaxDepth, params, Source.silent⟩

def withMaxDepth (context : Context) (maxDepth : Nat) : Context :=
  { context with maxDepth := maxDepth }

def withSource (context : Context) (source : Source) : Context :=
  { context with source := source }

def descend (context : Context) : Context :=
  { context with depth := context.depth + 1 }

def budget (context : Context) : Nat := context.maxDepth - context.depth

def canRecurse (context : Context) : Bool := context.depth < context.maxDepth

/-- The value of a variable: a parameter of the call, or the answer of the source. -/
def lookup (context : Context) (var : Variable) : Except FormulaFault Value :=
  match context.params.get? var.name with
  | some value => .ok value
  | none =>
      match context.source var.name ⟨var.params, context.params⟩ with
      | .error message => .error (.brokenDown var.name message)
      | .ok none => .error (.unresolved var.name)
      | .ok (some value) => .ok value

theorem budget_descend (context : Context) : context.descend.budget = context.budget - 1 := by
  simp only [budget, descend]
  omega

theorem budget_eq_of_left {context : Context} (left : 0 < context.budget) :
    context.budget = context.descend.budget + 1 := by
  rw [budget_descend]
  omega

/-- Induction on the budget: each level of expansion takes one from it. -/
theorem budget_induction {motive : Context → Prop}
    (step : ∀ context, (0 < context.budget → motive context.descend) → motive context)
    (context : Context) : motive context := by
  induction budget : context.budget generalizing context with
  | zero => exact step context fun left => absurd budget (Nat.ne_of_gt left)
  | succ remaining ih =>
      have next : context.descend.budget = remaining := by
        rw [budget_descend, budget, Nat.succ_sub_one]
      exact step context fun _ => ih context.descend next

end Context

end Phrasebook
