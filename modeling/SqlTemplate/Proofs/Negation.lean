import Mathlib
import SqlTemplate.Proofs.ComparisonOrder
import SqlTemplate.Proofs.DecidingClause
import SqlTemplate.Proofs.StructuralErrors

/-!
# Negating a condition

A condition is negated by negating its clauses and joining them with the other connective
(`Condition.Negates`): a comparison gets the operator that accepts what the other one does not, a
term of its own the other sign. The negated clause fails where the clause fails
(`ClauseKind.truth_negation`), and settles its connective where the clause settles the other one.
So two such conditions are decided at one place, and where they do not fail they have opposite truth
values (`Condition.evaluate_of_negates`).
-/

namespace SqlTemplate

/-- The operator that accepts what the operator does not. -/
def Operator.negation : Operator → Operator
  | .eq => .ne
  | .ne => .eq
  | .ge => .lt
  | .lt => .ge
  | .gt => .le
  | .le => .gt

theorem Operator.accepts_negation (operator : Operator) (o : Ordering) :
    operator.negation.accepts o = !operator.accepts o := by
  cases operator <;> cases o <;> rfl

/-- The other connective. -/
def Connective.dual : Connective → Connective
  | .and => .or
  | .or => .and

/-- The fault of a comparison with the negated operator. -/
def ErrorKind.negation : ErrorKind → ErrorKind
  | .unsupportedComparison symbol left right =>
    .unsupportedComparison (changeSymbol Operator.negation symbol) left right
  | kind => kind

/-- The clause that says the opposite. -/
def ClauseKind.negation : ClauseKind → ClauseKind
  | .comparison left operator right => .comparison left operator.negation right
  | .standalone negated term => .standalone (!negated) term

/-- The second condition joins the negated clauses of the first one with the other connective. How
it is written does not matter. -/
structure Condition.Negates (c c' : Condition) : Prop where
  connective : c'.connective = c.connective.dual
  clauses : List.Forall₂ (fun d d' => d'.kind = d.kind.negation) c.clauses c'.clauses

@[simp] theorem Operator.negation_negation (operator : Operator) :
    operator.negation.negation = operator := by
  cases operator <;> rfl

@[simp] theorem Connective.dual_dual (connective : Connective) :
    connective.dual.dual = connective := by
  cases connective <;> rfl

@[simp] theorem ClauseKind.negation_negation (k : ClauseKind) : k.negation.negation = k := by
  cases k <;> simp [negation]

theorem Condition.Negates.symm {c c' : Condition} (h : c.Negates c') : c'.Negates c := by
  refine ⟨?_, ?_⟩
  · rw [h.connective, Connective.dual_dual]
  · refine h.clauses.flip.imp fun d d' hd => ?_
    rw [hd, ClauseKind.negation_negation]

namespace Value

/-- A comparison with the negated operator has the other answer, and where it fails it fails so
too. -/
theorem compare_negation (operator : Operator) (a b : Value) :
    compare operator.negation a b =
      ((compare operator a b).map not).mapError ErrorKind.negation := by
  rw [compare.eq_def, compare.eq_def]
  split
  next => rfl
  next =>
    cases operator with
    | eq => rfl
    | ne => exact congrArg Except.ok (Bool.not_not _).symm
    | _ =>
        cases orderNullFirst? a b with
        | none =>
            simp only [Except.map, Except.mapError, ErrorKind.negation,
              ErrorKind.changeSymbol_symbol]
            rfl
        | some o => exact congrArg Except.ok (Operator.accepts_negation _ o)

end Value

/-- Only a comparison has a fault that names its operator. -/
theorem ErrorKind.negation_of_category {kind : ErrorKind} (h : kind.category ≠ .comparison) :
    kind.negation = kind := by
  cases kind <;> first | rfl | exact absurd rfl h

section Truth

variable {env : Environment} {loops : List Loop}

theorem Path.not_comparison_of_follow_eq_error {p : Path} {kind : ErrorKind}
    (h : p.follow env loops = .error kind) : kind.category ≠ .comparison := by
  rcases Except.bind_eq_error_iff.1 h with hroot | ⟨⟨first, type⟩, -, h⟩
  · rw [PathRoot.resolve.eq_def] at hroot
    split at hroot <;> split at hroot <;> cases hroot <;> intro h <;> cases h
  · rcases Except.bind_eq_error_iff.1 h with h | ⟨w, -, h⟩
    · obtain ⟨step, -, w, hstep⟩ := Except.exists_mem_of_foldlM_eq_error h
      rw [Walk.category_of_step_eq_error hstep]
      decide
    · cases h

theorem Term.negation_of_value_eq_error {t : Term} {kind : ErrorKind}
    (h : t.value env loops = .error kind) : kind.negation = kind := by
  cases t with
  | path p =>
      rw [value, Except.map_eq_error_iff] at h
      exact ErrorKind.negation_of_category (Path.not_comparison_of_follow_eq_error h)
  | null | bool | string | date | number => cases h

/-- The negated clause has the other truth value, and where it fails it fails so too. -/
theorem ClauseKind.truth_negation (k : ClauseKind) :
    k.negation.truth env loops =
      ((k.truth env loops).map not).mapError ErrorKind.negation := by
  cases k with
  | comparison left operator right =>
      rw [negation, truth, truth]
      cases hleft : left.value env loops with
      | error kind =>
          change Except.error kind = Except.error kind.negation
          rw [Term.negation_of_value_eq_error hleft]
      | ok a =>
          cases hright : right.value env loops with
          | error kind =>
              change Except.error kind = Except.error kind.negation
              rw [Term.negation_of_value_eq_error hright]
          | ok b => exact Value.compare_negation operator a b
  | standalone negated term =>
      rw [negation, truth, truth]
      cases hterm : term.value env loops with
      | error kind =>
          change Except.error kind = Except.error kind.negation
          rw [Term.negation_of_value_eq_error hterm]
      | ok v =>
          cases v with
          | bool b => cases b <;> cases negated <;> rfl
          | _ => rfl

theorem Connective.settledBy_dual_iff {connective : Connective} {r : Except ErrorKind Bool} :
    connective.dual.SettledBy ((r.map not).mapError ErrorKind.negation) ↔
      connective.SettledBy r := by
  rw [settledBy_mapError_iff]
  cases r with
  | error kind => exact iff_of_true (.error _ _) (.error _ _)
  | ok b =>
      refine settledBy_ok_iff.trans (Iff.trans ?_ settledBy_ok_iff.symm)
      cases connective <;> cases b <;> decide

end Truth

namespace Condition

/-- The condition fails at the given place: the clauses before it are passed over, and the clause
there gives the error. -/
def FailsAt (c : Condition) (env : Environment) (loops : List Loop) (place : Nat)
    (e : TemplateError) : Prop :=
  ∃ before clause after, c.clauses = before ++ clause :: after ∧ before.length = place ∧
    (∀ d ∈ before, d.evaluate c.expression env loops = .ok !c.connective.deciding) ∧
    clause.evaluate c.expression env loops = .error e

section Negates

variable {c c' : Condition} {env : Environment} {loops : List Loop} {e : TemplateError}

/-- Where all clauses are passed over, so are the negated ones. Else the first negated one that is
not negates the first one that is not. -/
theorem passed_or_settledBy (connective : Connective) (env : Environment) (loops : List Loop)
    {clauses clauses' : List Clause}
    (h : List.Forall₂ (fun d d' : Clause => d'.kind = d.kind.negation) clauses clauses') :
    ((∀ d ∈ clauses, ¬ connective.SettledBy (d.kind.truth env loops)) ∧
        ∀ d ∈ clauses', ¬ connective.dual.SettledBy (d.kind.truth env loops)) ∨
      ∃ (before : List Clause) (clause : Clause) (after before' : List Clause) (clause' : Clause)
        (after' : List Clause), clauses = before ++ clause :: after ∧
        clauses' = before' ++ clause' :: after' ∧ before.length = before'.length ∧
        (∀ d ∈ before, ¬ connective.SettledBy (d.kind.truth env loops)) ∧
        (∀ d ∈ before', ¬ connective.dual.SettledBy (d.kind.truth env loops)) ∧
        connective.SettledBy (clause.kind.truth env loops) ∧
        clause'.kind = clause.kind.negation := by
  induction h with
  | nil => exact .inl ⟨List.forall_mem_nil _, List.forall_mem_nil _⟩
  | @cons d d' clauses clauses' hd _ ih =>
      by_cases hsettled : connective.SettledBy (d.kind.truth env loops)
      · exact .inr ⟨[], d, clauses, [], d', clauses', rfl, rfl, rfl, List.forall_mem_nil _,
          List.forall_mem_nil _, hsettled, hd⟩
      · have hpassed : ¬ connective.dual.SettledBy (d'.kind.truth env loops) := by
          rwa [hd, ClauseKind.truth_negation, Connective.settledBy_dual_iff]
        rcases ih with ⟨hall, hall'⟩ |
          ⟨before, clause, after, before', clause', after', rfl, rfl, hlength, hbefore, hbefore', h⟩
        · exact .inl ⟨List.forall_mem_cons.2 ⟨hsettled, hall⟩,
            List.forall_mem_cons.2 ⟨hpassed, hall'⟩⟩
        · exact .inr ⟨d :: before, clause, after, d' :: before', clause', after', rfl, rfl,
            congrArg Nat.succ hlength, List.forall_mem_cons.2 ⟨hsettled, hbefore⟩,
            List.forall_mem_cons.2 ⟨hpassed, hbefore'⟩, h⟩

theorem failsAt_of_passed {before : List Clause} {clause : Clause} {after : List Clause}
    (hclauses : c.clauses = before ++ clause :: after)
    (hbefore : ∀ d ∈ before, ¬ c.connective.SettledBy (d.kind.truth env loops))
    (he : clause.evaluate c.expression env loops = .error e) :
    c.FailsAt env loops before.length e := by
  refine ⟨before, clause, after, hclauses, rfl, fun d hd => ?_, he⟩
  rw [d.evaluate_eq, Connective.not_settledBy_iff.1 (hbefore d hd)]
  rfl

/-- Two conditions that negate each other are decided by all their clauses, or by two clauses at one
place that negate each other. -/
theorem Negates.decided (h : c.Negates c') (env : Environment) (loops : List Loop) :
    (c.evaluate env loops = .ok !c.connective.deciding ∧
        c'.evaluate env loops = .ok !c'.connective.deciding) ∨
      ∃ (place : Nat) (clause clause' : Clause), clause'.kind = clause.kind.negation ∧
        c.evaluate env loops = clause.evaluate c.expression env loops ∧
        c'.evaluate env loops = clause'.evaluate c'.expression env loops ∧
        (∀ e, c.evaluate env loops = .error e → c.FailsAt env loops place e) ∧
        ∀ e, c'.evaluate env loops = .error e → c'.FailsAt env loops place e := by
  have hcases := passed_or_settledBy c.connective env loops h.clauses
  rw [← h.connective] at hcases
  rcases hcases with ⟨hall, hall'⟩ |
    ⟨before, clause, after, before', clause', after', hclauses, hclauses', hlength, hbefore,
      hbefore', hclause, hkind⟩
  · exact .inl ⟨evaluate_eq_ok_of_passed hall, evaluate_eq_ok_of_passed hall'⟩
  · have hclause' : c'.connective.SettledBy (clause'.kind.truth env loops) := by
      rwa [h.connective, hkind, ClauseKind.truth_negation, Connective.settledBy_dual_iff]
    have heval := evaluate_eq_of_settledBy hclauses hbefore hclause
    have heval' := evaluate_eq_of_settledBy hclauses' hbefore' hclause'
    refine .inr ⟨before.length, clause, clause', hkind, heval, heval', fun e he => ?_,
      fun e he => ?_⟩
    · exact failsAt_of_passed hclauses hbefore (heval ▸ he)
    · rw [hlength]
      exact failsAt_of_passed hclauses' hbefore' (heval' ▸ he)

theorem Negates.evaluate_eq_ok (h : c.Negates c') {b : Bool} (hb : c.evaluate env loops = .ok b) :
    c'.evaluate env loops = .ok !b := by
  rcases h.decided env loops with ⟨heval, heval'⟩ | ⟨_, clause, clause', hkind, heval, heval', -⟩
  · cases heval.symm.trans hb
    rw [heval', h.connective]
    cases c.connective <;> rfl
  · rw [heval, clause.evaluate_eq, Except.mapError_eq_ok_iff] at hb
    rw [heval', clause'.evaluate_eq, hkind, ClauseKind.truth_negation, hb]
    rfl

theorem Negates.exists_failsAt (h : c.Negates c') (he : c.evaluate env loops = .error e) :
    ∃ place e', c.FailsAt env loops place e ∧ c'.evaluate env loops = .error e' ∧
      c'.FailsAt env loops place e' ∧ e'.kind = e.kind.negation := by
  rcases h.decided env loops with
    ⟨heval, -⟩ | ⟨place, clause, clause', hkind, heval, heval', hfails, hfails'⟩
  · cases heval.symm.trans he
  · have hclause := heval.symm.trans he
    rw [clause.evaluate_eq] at hclause
    obtain ⟨kind, htruth, rfl⟩ := Except.mapError_eq_error_iff.1 hclause
    have he' : c'.evaluate env loops =
        .error ((env.error kind.negation c'.expression).withClause clause'.source) := by
      rw [heval', clause'.evaluate_eq, hkind, ClauseKind.truth_negation, htruth]
      rfl
    exact ⟨place, _, hfails _ he, he', hfails' _ he', rfl⟩

/-- A condition and its negation have opposite truth values, and where one fails the other fails at
the same place with the same fault, but for the operator of a comparison that has no answer. -/
theorem evaluate_of_negates (h : c.Negates c') (env : Environment) (loops : List Loop) :
    (∀ b, c.evaluate env loops = .ok b ↔ c'.evaluate env loops = .ok !b) ∧
      (∀ e, c.evaluate env loops = .error e → ∃ place e', c.FailsAt env loops place e ∧
        c'.evaluate env loops = .error e' ∧ c'.FailsAt env loops place e' ∧
        e'.kind = e.kind.negation) ∧
      ∀ e', c'.evaluate env loops = .error e' → ∃ place e, c'.FailsAt env loops place e' ∧
        c.evaluate env loops = .error e ∧ c.FailsAt env loops place e ∧
        e.kind = e'.kind.negation := by
  refine ⟨fun b => ⟨h.evaluate_eq_ok, fun hb => ?_⟩, fun e => h.exists_failsAt,
    fun e' => h.symm.exists_failsAt⟩
  rw [h.symm.evaluate_eq_ok hb, Bool.not_not]

/-- A condition and its negation fail at the second clause, each with its own operator. -/
theorem evaluate_of_negates_unsupported :
    let flag : Term := .path ⟨.argument "p", [.property "flag"]⟩
    let name : Term := .path ⟨.argument "p", [.property "name"]⟩
    let c : Condition := ⟨"p.flag && p.name < 'x'", .and,
      [⟨"p.flag", .standalone false flag⟩,
        ⟨"p.name < 'x'", .comparison name .lt (.string "x")⟩]⟩
    let c' : Condition := ⟨"!p.flag || p.name >= 'x'", .or,
      [⟨"!p.flag", .standalone true flag⟩,
        ⟨"p.name >= 'x'", .comparison name .ge (.string "x")⟩]⟩
    let p : Value := .map [("flag", .bool true), ("name", .string "y")]
    let env : Environment := ⟨⟨[("p", p)], []⟩, {}, "", 0⟩
    c.Negates c' ∧
      ∃ e place e', c.evaluate env [] = .error e ∧
        e.kind = .unsupportedComparison "<" "string" "string" ∧
        c.FailsAt env [] place e ∧ c'.FailsAt env [] place e' ∧
        e'.kind = .unsupportedComparison ">=" "string" "string" := by
  intro flag name c c' p env
  have hnegates : c.Negates c' := ⟨rfl, .cons rfl (.cons rfl .nil)⟩
  let e := (env.error (.unsupportedComparison "<" "string" "string") c.expression).withClause
    "p.name < 'x'"
  have he : c.evaluate env [] = .error e := rfl
  obtain ⟨place, e', hfails, -, hfails', hkind⟩ :=
    (evaluate_of_negates hnegates env []).2.1 e he
  exact ⟨hnegates, e, place, e', he, rfl, hfails, hfails', hkind⟩

end Negates

end Condition

end SqlTemplate
