import Mathlib
import SqlTemplate.Proofs.Origins

/-!
# Types of bound values

The type under which a value is bound is a declared one or that of the value. A type may be
declared for an argument, by its name, and for a property, by the object that has it
(`Path.declaredType?`). A property has its declared type where it is null only. An argument has
it in any case (`Path.targetType_of_follow`), and so a value that is not null may be bound under
a type that is not its own: where a variable names the argument and goes no further
(`Variable.bindsRoot`).

In an embedded text the argument keeps the type that it has outside, so the rule is the same for
all values of a template, with the types that are declared for its arguments
(`Template.type_of_bound_value`).
-/

namespace SqlTemplate

open Template (Node Variable)

/-- The type declared for what stands at the root. -/
def PathRoot.declaredType? (root : PathRoot) (env : Environment) : Option ValueType :=
  match root with
  | .argument name => env.arguments.types.get? name
  | .loop => none

namespace Path

/-- The type declared for what the path leads to. -/
def declaredType? (p : Path) (env : Environment) (loops : List Loop) : Option ValueType :=
  match p.segments.getLast? with
  | none => p.root.declaredType? env
  | some step =>
    match (Path.mk p.root p.segments.dropLast).follow env loops with
    | .ok r => step.declaredType? r.target
    | .error _ => none

theorem declaredType?_concat {root : PathRoot} {steps : List Segment} {step : Segment}
    {env : Environment} {loops : List Loop} {r : Resolved}
    (h : (Path.mk root steps).follow env loops = .ok r) :
    (Path.mk root (steps ++ [step])).declaredType? env loops = step.declaredType? r.target := by
  simp [declaredType?, h]

end Path

theorem PathRoot.type_of_resolve {root : PathRoot} {env : Environment} {loops : List Loop}
    {v : Value} {type : ValueType} (h : root.resolve env loops = .ok (v, type)) :
    type = (root.declaredType? env).getD v.type := by
  cases root with
  | argument name =>
      rw [resolve] at h
      split at h
      next =>
        cases h
        rfl
      next => cases h
  | loop =>
      rw [resolve] at h
      split at h
      next =>
        cases h
        rfl
      next => cases h

/-- After a step a value has its own type, or the declared one if it is null. -/
theorem Walk.type_of_step {w w' : Walk} {step : Segment} (h : w.step step = .ok w') :
    w'.type =
      if w'.value.isNull then (step.declaredType? w.value).getD w'.value.type
      else w'.value.type := by
  rw [Walk.step] at h
  split at h
  next => cases h
  next =>
    cases h
    rfl

/-- What a path leads to has its own type; a null has the declared one, and so has all that
stands at the root. -/
theorem Path.targetType_of_follow {p : Path} {env : Environment} {loops : List Loop}
    {r : Resolved} (h : p.follow env loops = .ok r) :
    r.targetType =
      if r.target.isNull || p.segments.isEmpty then
        (p.declaredType? env loops).getD r.target.type
      else r.target.type := by
  obtain ⟨root, steps⟩ := p
  obtain ⟨⟨first, firstType⟩, hfirst, h⟩ := Except.bind_eq_ok_iff.1 h
  obtain ⟨w, hw, h⟩ := Except.bind_eq_ok_iff.1 h
  cases h
  rcases List.eq_nil_or_concat steps with rfl | ⟨steps, step, rfl⟩
  · cases hw
    simpa [declaredType?] using PathRoot.type_of_resolve hfirst
  · rw [List.concat_eq_append, List.foldlM_append] at hw
    obtain ⟨before, hbefore, hw⟩ := Except.bind_eq_ok_iff.1 hw
    obtain ⟨after, hstep, hw⟩ := Except.bind_eq_ok_iff.1 hw
    cases hw
    have hfollow : (Path.mk root steps).follow env loops =
        .ok ⟨first, firstType, before.value, before.type, none⟩ :=
      Except.bind_eq_ok_iff.2 ⟨_, hfirst, Except.bind_eq_ok_iff.2 ⟨before, hbefore, rfl⟩⟩
    rw [List.concat_eq_append, declaredType?_concat hfollow]
    simpa using Walk.type_of_step hstep

/-- A pattern has the type of the string that it is made of. -/
theorem Resolved.type_withLike (r : Resolved) (option : Option Like) (escape : Char) :
    (r.withLike option escape).target.type = r.target.type ∧
      (r.withLike option escape).targetType = r.targetType := by
  unfold withLike
  split
  next like s _ hs => exact ⟨by rw [hs]; rfl, rfl⟩
  next => exact ⟨rfl, rfl⟩

theorem Value.isNull_eq_of_type_eq {v w : Value} (h : v.type = w.type) : v.isNull = w.isNull := by
  rw [Bool.eq_iff_iff, isNull_iff, isNull_iff, ← type_eq_unknown_iff, ← type_eq_unknown_iff, h]

namespace Template.Variable

/-- Whether the variable binds the value that its path starts at. -/
def bindsRoot (v : Variable) : Bool :=
  !v.inScope && v.path.segments.isEmpty

variable {v : Variable} {inner env : Environment} {loops : List Loop}

/-- The value of a variable has its own type; a null has the declared one, and so has all that
stands at the root. The declarations of a larger environment count as well. -/
theorem targetType_of_resolve {r : Resolved} (hinner : inner.PartOf env)
    (h : v.resolve inner loops = .ok r) :
    r.targetType =
      if r.target.isNull || v.path.segments.isEmpty then
        (v.path.declaredType? env loops).getD r.target.type
      else r.target.type := by
  obtain ⟨s, hs, h⟩ := Except.bind_eq_ok_iff.1 h
  have hfollow := hinner.follow (Except.mapError_eq_ok_iff.1 hs)
  dsimp only at h
  split at h
  next => cases h
  next =>
    cases h
    obtain ⟨htype, htargetType⟩ := s.type_withLike
      (v.options.effective (Loop.inheritedLike loops)) inner.config.likeEscape
    rw [htargetType, htype, Value.isNull_eq_of_type_eq htype]
    exact Path.targetType_of_follow hfollow

/-- A bound value has its own type; a null has the declared one, and so has all that is bound
where the path of its variable starts. -/
theorem type_of_placeholder {ps : List Piece} {w : Value} {type : ValueType}
    (hinner : inner.PartOf env) (h : v.boundPieces inner loops = .ok ps)
    (hp : .placeholder w type ∈ ps) :
    type =
      if w.isNull || v.bindsRoot then (v.path.declaredType? env loops).getD w.type
      else w.type := by
  obtain ⟨r, hr, ⟨hscope, present, hpresent, hw, rfl⟩ | ⟨hscope, rfl, rfl⟩⟩ :=
    placeholder_cases h hp
  · rw [bindsRoot, hscope, isNull_eq_false_of_mem_elements hpresent hw]
    rfl
  · rw [bindsRoot, hscope, targetType_of_resolve hinner hr]
    rfl

end Template.Variable

/-- The variable binds the value in the scene, under the type. -/
def Scene.Binds (scene : Scene) (v : Variable) (w : Value) (type : ValueType) : Prop :=
  Node.bind v ∈ scene.nodes ∧
    ∃ ps, v.boundPieces scene.environment scene.loops = .ok ps ∧ .placeholder w type ∈ ps

theorem Scene.Adds.exists_binds {scene : Scene} {w : Value} {type : ValueType}
    (h : scene.Adds (.placeholder w type)) : ∃ v, scene.Binds v w type := by
  cases h with
  | bound hmem h hp => exact ⟨_, hmem, _, h, hp⟩

namespace Template

/-- The value at a place is bound by some variable. A null has the type that is declared for it,
if there is one. Any other value has its own type, unless an argument is bound as it is; that one
has the declared type. So the type of a value that is not null is its own if and only if no other
one is declared for an argument that is bound as it is. -/
theorem type_of_bound_value {t : Template} {arguments : Arguments} {config : Config}
    {q : BoundSql} (h : t.evaluate arguments config = .ok q) {k : Nat} {w : Value}
    {type : ValueType} (hw : q.values[k]? = some w) (htype : q.types[k]? = some type) :
    ∃ scene v, (t.scene arguments config).Reaches scene ∧ scene.Binds v w type ∧
      let declared := v.path.declaredType? (t.scene arguments config).environment scene.loops
      (w = .null → type = declared.getD .unknown) ∧
      (w ≠ .null → type = if v.bindsRoot then declared.getD w.type else w.type) ∧
      (w ≠ .null → (type = w.type ↔ (v.bindsRoot = true → ∀ d ∈ declared, d = w.type))) := by
  obtain ⟨scene, hreaches, hadds⟩ := exists_adds_of_evaluate h hw htype
  obtain ⟨v, hbinds⟩ := hadds.exists_binds
  obtain ⟨ps, hps, hp⟩ := hbinds.2
  have hrule := Variable.type_of_placeholder hreaches.partOf hps hp
  have hvalue (hnull : w ≠ .null) : type = if v.bindsRoot then
      (v.path.declaredType? (t.scene arguments config).environment scene.loops).getD w.type
      else w.type := by
    rw [Ne, ← Value.isNull_iff, Bool.not_eq_true] at hnull
    simpa [hnull] using hrule
  refine ⟨scene, v, hreaches, hbinds, ?_, hvalue, ?_⟩
  · rintro rfl
    exact hrule
  · intro hnull
    rw [hvalue hnull]
    cases v.bindsRoot with
    | false => simp
    | true =>
        cases v.path.declaredType? (t.scene arguments config).environment scene.loops with
        | none => simp
        | some d => simp

/-- A number is bound as a string if its argument is declared to be one. -/
theorem type_of_bound_value_number :
    let v : Variable := ⟨"p", ⟨.argument "p", []⟩, .none, "1"⟩
    let t : Template := ⟨"/*p*/1", [.bind v]⟩
    let arguments : Arguments := ⟨[("p", .int64 5)], [("p", .string)]⟩
    t.evaluate arguments {} = .ok ⟨"?", [.int64 5], [.string]⟩ ∧
      ∃ scene v, (t.scene arguments {}).Reaches scene ∧ scene.Binds v (.int64 5) .string ∧
        v.bindsRoot = true ∧
          v.path.declaredType? (t.scene arguments {}).environment scene.loops = some .string := by
  intro v t arguments
  have hevaluate : t.evaluate arguments {} = .ok ⟨"?", [.int64 5], [.string]⟩ := by cbv
  obtain ⟨scene, v, hreaches, hbinds, -, htype, -⟩ :=
    type_of_bound_value (k := 0) hevaluate rfl rfl
  refine ⟨hevaluate, scene, v, hreaches, hbinds, ?_⟩
  have hstring := htype (by rintro ⟨⟩)
  split at hstring
  next hroot =>
    refine ⟨hroot, ?_⟩
    generalize v.path.declaredType? _ scene.loops = declared at hstring ⊢
    cases declared with
    | none => cases hstring
    | some d => rw [hstring, Option.getD_some]
  next => cases hstring

/-- The type of a value that is not null may be another one than its own. -/
theorem not_forall_type_of_bound_value_eq :
    ¬ ∀ (t : Template) (arguments : Arguments) (config : Config) (q : BoundSql) (k : Nat)
        (w : Value) (type : ValueType), t.evaluate arguments config = .ok q →
      q.values[k]? = some w → q.types[k]? = some type → w ≠ .null → type = w.type := by
  intro h
  let v : Variable := ⟨"p", ⟨.argument "p", []⟩, .none, "1"⟩
  have hevaluate : evaluate ⟨"/*p*/1", [.bind v]⟩ ⟨[("p", .int64 5)], [("p", .string)]⟩ {} =
      .ok ⟨"?", [.int64 5], [.string]⟩ := by cbv
  have htype := h _ _ _ _ 0 _ _ hevaluate rfl rfl (by rintro ⟨⟩)
  cases htype

end Template

end SqlTemplate
