import BlockWorkbench.Proofs.Outcome
import BlockWorkbench.Script.Evaluation

/-!
Scripts without reserved names. A name is reserved if it begins with two underscores; a script has
none if no name in it is, of a variable, a parameter, a function or an attribute.
-/

namespace BlockWorkbench.Script

/-- Whether a name begins with two underscores. -/
def IsReserved (name : String) : Prop := "__".isPrefixOf name = true

instance : DecidablePred IsReserved := fun name =>
  inferInstanceAs (Decidable ("__".isPrefixOf name = true))

theorem isReserved_predefinedNames : IsReserved predefinedNames := by
  unfold IsReserved
  cbv

mutual

/-- Whether an expression has no reserved name in it, also for an attribute. -/
def Expr.Unreserved : Expr → Prop
  | .none | .bool _ | .int _ | .float _ | .str _ => True
  | .name n => ¬IsReserved n
  | .list items | .tuple items => AllUnreserved items
  | .dict entries => EntriesUnreserved entries
  | .unary _ e | .not e => e.Unreserved
  | .binary _ a b | .both a b | .either a b | .index a b => a.Unreserved ∧ b.Unreserved
  | .compare first rest => first.Unreserved ∧ OperandsUnreserved rest
  | .conditional a b c => a.Unreserved ∧ b.Unreserved ∧ c.Unreserved
  | .member e n => e.Unreserved ∧ ¬IsReserved n
  | .call f args => f.Unreserved ∧ AllUnreserved args

def AllUnreserved : List Expr → Prop
  | [] => True
  | e :: rest => e.Unreserved ∧ AllUnreserved rest

def EntriesUnreserved : List (Expr × Expr) → Prop
  | [] => True
  | (key, e) :: rest => key.Unreserved ∧ e.Unreserved ∧ EntriesUnreserved rest

def OperandsUnreserved : List (CompareOp × Expr) → Prop
  | [] => True
  | (_, e) :: rest => e.Unreserved ∧ OperandsUnreserved rest

end

mutual

def Target.Unreserved : Target → Prop
  | .name n => ¬IsReserved n
  | .index e key => e.Unreserved ∧ key.Unreserved
  | .member e n => e.Unreserved ∧ ¬IsReserved n
  | .tuple items => TargetsUnreserved items

def TargetsUnreserved : List Target → Prop
  | [] => True
  | t :: rest => t.Unreserved ∧ TargetsUnreserved rest

end

def Param.Unreserved (p : Param) : Prop :=
  ¬IsReserved p.name ∧ ∀ e, p.default? = some e → e.Unreserved

mutual

def Stmt.Unreserved : Stmt → Prop
  | .expr e => e.Unreserved
  | .assign targets e => TargetsUnreserved targets ∧ e.Unreserved
  | .augment target _ e => target.Unreserved ∧ e.Unreserved
  | .define name params body =>
    ¬IsReserved name ∧ (∀ p ∈ params, p.Unreserved) ∧ StatementsUnreserved body
  | .branch e body orelse | .loop e body orelse =>
    e.Unreserved ∧ StatementsUnreserved body ∧ StatementsUnreserved orelse
  | .forEach target e body orelse =>
    target.Unreserved ∧ e.Unreserved ∧ StatementsUnreserved body ∧ StatementsUnreserved orelse
  | .return value | .raise value => ∀ e, value = some e → e.Unreserved
  | .pass | .break | .continue => True

def StatementsUnreserved : List Stmt → Prop
  | [] => True
  | stmt :: rest => stmt.Unreserved ∧ StatementsUnreserved rest

end

theorem allUnreserved_iff {es : List Expr} : AllUnreserved es ↔ ∀ e ∈ es, e.Unreserved := by
  induction es with
  | nil => simp [AllUnreserved]
  | cons e rest ih => simp [AllUnreserved, ih]

theorem entriesUnreserved_iff {entries : List (Expr × Expr)} :
    EntriesUnreserved entries ↔ ∀ e ∈ entries, e.1.Unreserved ∧ e.2.Unreserved := by
  induction entries with
  | nil => simp [EntriesUnreserved]
  | cons e rest ih => simp [EntriesUnreserved, ih, and_assoc]

theorem targetsUnreserved_iff {targets : List Target} :
    TargetsUnreserved targets ↔ ∀ t ∈ targets, t.Unreserved := by
  induction targets with
  | nil => simp [TargetsUnreserved]
  | cons t rest ih => simp [TargetsUnreserved, ih]

theorem statementsUnreserved_iff {program : List Stmt} :
    StatementsUnreserved program ↔ ∀ stmt ∈ program, stmt.Unreserved := by
  induction program with
  | nil => simp [StatementsUnreserved]
  | cons stmt rest ih => simp [StatementsUnreserved, ih]

end BlockWorkbench.Script
