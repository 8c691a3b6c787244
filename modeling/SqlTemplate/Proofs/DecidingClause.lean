import Mathlib
import SqlTemplate.Proofs.Agreement

/-!
# The clause that decides a condition

What a clause says is true, false or a fault, and that depends on nothing but the values of its
terms (`ClauseKind.truth`). The error that is made of a fault names the condition and the clause and
shows the arguments, but has no part in it.

The clauses of a condition are gone through from the left. Those that neither fail nor settle the
connective are passed over (`evaluateClauses_append`), and the first other one decides the
condition. So nothing behind it matters (`evaluate_of_settledBy`): it guards what follows, as a test
for null guards the path behind it.
-/

namespace SqlTemplate

namespace Term

/-- The value of the term, or the fault of its path. -/
def value (t : Term) (env : Environment) (loops : List Loop) : Except ErrorKind Value :=
  match t with
  | .null => .ok .null
  | .bool b => .ok (.bool b)
  | .string s => .ok (.string s)
  | .date t => .ok (.dateTime t)
  | .number d => .ok (.decimal d)
  | .path p => (p.follow env loops).map Resolved.target

variable {env env' : Environment} {loops : List Loop}

theorem evaluate_eq (t : Term) (expression : String) :
    t.evaluate expression env loops =
      (t.value env loops).mapError (env.error · expression) := by
  cases t with
  | path p =>
      rw [evaluate, value, Path.resolve]
      cases p.follow env loops <;> rfl
  | null | bool | string | date | number => rfl

theorem value_eq_of_agrees {t : Term}
    (h : ∀ p, t.path? = some p → env.Agrees p.argument?.toList env') :
    t.value env loops = t.value env' loops := by
  cases t with
  | path p => rw [value, value, Path.follow_eq_of_agrees (h p rfl)]
  | null | bool | string | date | number => rfl

end Term

namespace ClauseKind

/-- Whether a term with the given value is true, or false if `negated` holds. -/
def truthOf (negated : Bool) : Value → Except ErrorKind Bool
  | .bool b => .ok (b != negated)
  | v => .error (.notBoolean v.typeLabel)

/-- Whether what the clause says is true, or its fault. -/
def truth (k : ClauseKind) (env : Environment) (loops : List Loop) : Except ErrorKind Bool :=
  match k with
  | .comparison left operator right => do
    let a ← left.value env loops
    let b ← right.value env loops
    Value.compare operator a b
  | .standalone negated term => do
    let v ← term.value env loops
    truthOf negated v

variable {env env' : Environment} {loops : List Loop}

/-- A clause is decided by its truth, and its fault becomes an error. -/
theorem decide_eq (k : ClauseKind) (expression : String) :
    k.decide expression env loops = (k.truth env loops).mapError (env.error · expression) := by
  cases k with
  | comparison left operator right =>
      rw [decide, truth, left.evaluate_eq, right.evaluate_eq]
      cases left.value env loops with
      | error kind => rfl
      | ok a => cases right.value env loops <;> rfl
  | standalone negated term =>
      rw [decide, truth, term.evaluate_eq]
      cases term.value env loops with
      | error kind => rfl
      | ok v => cases v <;> rfl

end ClauseKind

namespace Clause

variable {env env' : Environment} {loops : List Loop}

theorem evaluate_eq (c : Clause) (expression : String) :
    c.evaluate expression env loops =
      (c.kind.truth env loops).mapError
        fun kind => (env.error kind expression).withClause c.source := by
  rw [evaluate, ClauseKind.decide_eq]
  cases c.kind.truth env loops <;> rfl

/-- The truth of a clause depends on the arguments that it mentions. -/
theorem truth_eq_of_agrees {c : Clause}
    (h : ∀ p ∈ c.paths, env.Agrees p.argument?.toList env') :
    c.kind.truth env loops = c.kind.truth env' loops := by
  have hterm : ∀ t ∈ c.terms, t.value env loops = t.value env' loops := fun t ht =>
    Term.value_eq_of_agrees fun p hp => h p (List.mem_filterMap.2 ⟨t, ht, hp⟩)
  rw [terms] at hterm
  cases hkind : c.kind with
  | comparison left operator right =>
      rw [hkind, List.forall_mem_cons, List.forall_mem_cons] at hterm
      rw [ClauseKind.truth, ClauseKind.truth, hterm.1, hterm.2.1]
  | standalone negated term =>
      rw [hkind, List.forall_mem_cons] at hterm
      rw [ClauseKind.truth, ClauseKind.truth, hterm.1]

end Clause

/-- A clause of the given outcome is the last that is looked at: it fails, or it is false where all
clauses have to be true, or true where one of them is enough. -/
inductive Connective.SettledBy {ε : Type} : Connective → Except ε Bool → Prop where
  | error (connective : Connective) (e : ε) : SettledBy connective (.error e)
  | and : SettledBy .and (.ok false)
  | or : SettledBy .or (.ok true)

namespace Connective

variable {ε ε' : Type} {connective : Connective} {r : Except ε Bool}

theorem settledBy_ok_iff {b : Bool} :
    SettledBy connective (.ok b : Except ε Bool) ↔ b = connective.deciding := by
  constructor
  · rintro (_ | _)
    · rfl
    · rfl
  · rintro rfl
    cases connective
    · exact .and
    · exact .or

/-- What does not settle the connective is the other truth value. -/
theorem not_settledBy_iff : ¬ SettledBy connective r ↔ r = .ok !connective.deciding := by
  cases r with
  | error e => simp [SettledBy.error]
  | ok b =>
      rw [settledBy_ok_iff, Except.ok.injEq]
      exact Bool.eq_not.symm

theorem settledBy_mapError_iff {f : ε → ε'} :
    SettledBy connective (r.mapError f) ↔ SettledBy connective r := by
  cases r with
  | error e => exact iff_of_true (.error _ _) (.error _ _)
  | ok b => exact settledBy_ok_iff.trans settledBy_ok_iff.symm

end Connective

namespace Condition

variable {env : Environment} {loops : List Loop} {connective : Connective} {expression : String}

/-- Clauses that do not settle the connective are passed over. -/
theorem evaluateClauses_append {before : List Clause} (after : List Clause)
    (h : ∀ d ∈ before, ¬ connective.SettledBy (d.kind.truth env loops)) :
    evaluateClauses connective expression env loops (before ++ after) =
      evaluateClauses connective expression env loops after := by
  induction before with
  | nil => rfl
  | cons d before ih =>
      rw [List.forall_mem_cons, Connective.not_settledBy_iff] at h
      rw [List.cons_append, evaluateClauses, d.evaluate_eq, h.1, ← ih h.2]
      cases connective <;> rfl

/-- The clause that settles the connective decides. -/
theorem evaluateClauses_cons {clause : Clause} (after : List Clause)
    (h : connective.SettledBy (clause.kind.truth env loops)) :
    evaluateClauses connective expression env loops (clause :: after) =
      clause.evaluate expression env loops := by
  rw [evaluateClauses, clause.evaluate_eq]
  generalize clause.kind.truth env loops = r at h ⊢
  cases h <;> rfl

/-- A condition whose clauses are all passed over. -/
theorem evaluate_eq_ok_of_passed {c : Condition}
    (h : ∀ d ∈ c.clauses, ¬ c.connective.SettledBy (d.kind.truth env loops)) :
    c.evaluate env loops = .ok !c.connective.deciding := by
  rw [evaluate, ← List.append_nil c.clauses, evaluateClauses_append _ h, evaluateClauses]

/-- A condition whose clauses are passed over up to one that settles the connective. -/
theorem evaluate_eq_of_settledBy {c : Condition} {before : List Clause} {clause : Clause}
    {after : List Clause}
    (hclauses : c.clauses = before ++ clause :: after)
    (hbefore : ∀ d ∈ before, ¬ c.connective.SettledBy (d.kind.truth env loops))
    (hclause : c.connective.SettledBy (clause.kind.truth env loops)) :
    c.evaluate env loops = clause.evaluate c.expression env loops := by
  rw [evaluate, hclauses, evaluateClauses_append _ hbefore, evaluateClauses_cons _ hclause]

/-- The arguments of clauses agree with others on the paths of these clauses. -/
theorem agrees_of_mem {c : Condition} {arguments : Arguments}
    (h : env.arguments.AgreesOn c.argumentNames arguments) {clause : Clause}
    (hclause : clause ∈ c.clauses) :
    ∀ p ∈ clause.paths, env.Agrees p.argument?.toList { env with arguments } := by
  intro p hp
  refine ⟨fun name hname => h name ?_, rfl, rfl⟩
  have hmem : p ∈ c.paths := List.mem_flatMap.2 ⟨clause, hclause, hp⟩
  exact List.mem_filterMap.2 ⟨p, hmem, Option.mem_toList.1 hname⟩

/-- The first clause that fails or settles the connective decides the condition: its truth is the
truth of the condition, and its error is the error, which names the clause. The clauses behind it
can be replaced and arguments that it and those before it do not mention can be changed. A condition
without such a clause is true if all clauses have to be true. -/
theorem evaluate_of_settledBy (c : Condition) (env : Environment) (loops : List Loop) :
    (∀ before clause after, c.clauses = before ++ clause :: after →
      (∀ d ∈ before, ¬ c.connective.SettledBy (d.kind.decide c.expression env loops)) →
      c.connective.SettledBy (clause.kind.decide c.expression env loops) →
      c.evaluate env loops =
          (clause.kind.decide c.expression env loops).mapError (·.withClause clause.source) ∧
        ∀ expression after' arguments,
          env.arguments.AgreesOn (argumentNames { c with clauses := before ++ [clause] })
            arguments →
          evaluate ⟨expression, c.connective, before ++ clause :: after'⟩ { env with arguments }
              loops =
            (c.evaluate env loops).mapError
              fun e => { e with expression, parameters := arguments.text }) ∧
    ((∀ d ∈ c.clauses, ¬ c.connective.SettledBy (d.kind.decide c.expression env loops)) →
      c.evaluate env loops = .ok (c.connective == .and)) := by
  simp only [ClauseKind.decide_eq, Connective.settledBy_mapError_iff]
  refine ⟨fun before clause after hclauses hbefore hclause => ?_, fun h => ?_⟩
  · have heval := evaluate_eq_of_settledBy hclauses hbefore hclause
    refine ⟨?_, fun expression after' arguments hagrees => ?_⟩
    · rw [heval, Clause.evaluate, ClauseKind.decide_eq]
    · have hsame : ∀ d ∈ before ++ [clause],
          d.kind.truth env loops = d.kind.truth { env with arguments } loops :=
        fun d hd => Clause.truth_eq_of_agrees (agrees_of_mem hagrees hd)
      rw [List.forall_mem_append, List.forall_mem_singleton] at hsame
      have hbefore' : ∀ d ∈ before,
          ¬ c.connective.SettledBy (d.kind.truth { env with arguments } loops) :=
        fun d hd => hsame.1 d hd ▸ hbefore d hd
      have heval' := evaluate_eq_of_settledBy
        (c := ⟨expression, c.connective, before ++ clause :: after'⟩) rfl hbefore'
        (hsame.2 ▸ hclause)
      rw [heval', heval, Clause.evaluate_eq, Clause.evaluate_eq, ← hsame.2]
      cases clause.kind.truth env loops <;> rfl
  · rw [evaluate_eq_ok_of_passed h]
    cases c.connective <;> rfl

/-- A test for null guards a path that leads through null, also where an argument is taken away that
only the other side of the guarded clause mentions. -/
theorem evaluate_of_settledBy_guard :
    let guard : Clause := ⟨"p.a != null", .comparison
      (.path ⟨.argument "p", [.property "a"]⟩) .ne .null⟩
    let guarded : Clause := ⟨"p.a.b == q", .comparison
      (.path ⟨.argument "p", [.property "a", .property "b"]⟩) .eq (.path ⟨.argument "q", []⟩)⟩
    let c : Condition := ⟨"p.a != null && p.a.b == q", .and, [guard, guarded]⟩
    let p : Value := .map [("a", .null)]
    let env : Environment := ⟨⟨[("p", p), ("q", .int32 1)], []⟩, {}, "", 0⟩
    let arguments : Arguments := ⟨[("p", p)], []⟩
    c.connective.SettledBy (guard.kind.decide c.expression env []) ∧
      c.evaluate env [] = .ok false ∧ c.evaluate { env with arguments } [] = .ok false ∧
      ∃ e, guarded.evaluate c.expression env [] = .error e := by
  intro guard guarded c p env arguments
  have hsettled : c.connective.SettledBy (guard.kind.decide c.expression env []) := .and
  have hdecided := (evaluate_of_settledBy c env []).1 [] guard [guarded] rfl nofun hsettled
  have hfalse : c.evaluate env [] = .ok false := hdecided.1
  have hagrees : env.arguments.AgreesOn (argumentNames { c with clauses := [] ++ [guard] })
      arguments := by
    intro name hname
    obtain rfl : name = "p" := List.mem_singleton.1 hname
    exact ⟨rfl, rfl⟩
  refine ⟨hsettled, hfalse, ?_, _, rfl⟩
  have hsame := hdecided.2 c.expression [guarded] arguments hagrees
  rw [hfalse] at hsame
  exact hsame

end Condition

end SqlTemplate
