import Mathlib
import SqlTemplate.Evaluation.Resolution
import SqlTemplate.Proofs.Result

/-!
# Paths followed step by step

To follow a path is to find the value at its root and then to take one step after another
(`Segment.followAll`). So where the first steps lead to a value, the path leads to where the other
steps lead from there. A path that leads nowhere has no value at its root
(`PathRoot.LeadsNowhere`), or there is exactly one step at which it stops (`Path.StopsAt`).

What can be wrong with a step is listed in `Segment.LeadsNowhere`, with the reason and the error
that names it, and a path stops at a step that is on this list. The reason can be told from the
error again (`ErrorKind.reason?`), so no two reasons have an error in common.
-/

namespace SqlTemplate

/-- The reason for which a step leads nowhere, as the error tells it. -/
def ErrorKind.reason? : ErrorKind → Option Missing
  | .nullIntermediate .. => some .nullTarget
  | .propertyNotFound .. => some .noSuchProperty
  | .methodNotFound .. => some .noSuchMethod
  | .indexOutOfRange index size => some (.indexOutOfRange index size)
  | .nonNumericIndex _ => some .nonNumericIndex
  | .notIndexable _ => some .notIndexable
  | _ => none

namespace Segment

/-- Takes the steps one after another. -/
def followAll (v : Value) (steps : List Segment) : Except Missing Value :=
  steps.foldlM (fun w step => (step.follow w).map Reached.value) v

theorem followAll_append_eq_ok_iff {v w : Value} {steps steps' : List Segment} :
    followAll v (steps ++ steps') = .ok w ↔
      ∃ u, followAll v steps = .ok u ∧ followAll u steps' = .ok w := by
  rw [followAll, List.foldlM_append, Except.bind_eq_ok_iff]
  rfl

/-- The step leads nowhere from the value, for the reason. The error names it behind the given text
of a path. -/
inductive LeadsNowhere (walked : String) (v : Value) : Segment → Missing → ErrorKind → Prop where
  | nullTarget {step} (hv : v = .null) :
      LeadsNowhere walked v step .nullTarget (.nullIntermediate walked step.text)
  | noSuchProperty {name} (hv : v ≠ .null) (hmap : ∀ entries, v ≠ .map entries)
      (hobject : ∀ o, v = .object o → Entries.get? name o.properties = none) :
      LeadsNowhere walked v (.property name) .noSuchProperty (.propertyNotFound v.type.name name)
  | noSuchMethod {name} (hv : v ≠ .null) (hcall : v.call? name = none) :
      LeadsNowhere walked v (.method name) .noSuchMethod (.methodNotFound v.type.name name)
  | notIndexable {raw} (hv : v ≠ .null) (hlist : ∀ items, v ≠ .list items) :
      LeadsNowhere walked v (.index raw) .notIndexable (.notIndexable v.type.name)
  | nonNumericIndex {raw items} (hv : v = .list items) (hraw : indexOfText? raw = none) :
      LeadsNowhere walked v (.index raw) .nonNumericIndex (.nonNumericIndex raw)
  | indexOutOfRange {raw items place} (hv : v = .list items) (hraw : indexOfText? raw = some place)
      (hplace : items.length ≤ place) :
      LeadsNowhere walked v (.index raw) (.indexOutOfRange place items.length)
        (.indexOutOfRange place items.length)

variable {walked : String} {v : Value} {step : Segment} {m : Missing} {kind : ErrorKind}

theorem follow_property_eq_error_iff {name : String} (hv : v ≠ .null) :
    (property name).follow v = .error m ↔
      m = .noSuchProperty ∧ (∀ entries, v ≠ .map entries) ∧
        ∀ o, v = .object o → Entries.get? name o.properties = none := by
  cases v with
  | null => exact absurd rfl hv
  | object o =>
      rw [follow]
      cases hname : Entries.get? name o.properties with
      | none => simp [hname, eq_comm]
      | some w => simp [hname]
  | map entries => simp [follow]
  | _ => simp [follow, eq_comm]

theorem follow_method_eq_error_iff {name : String} (hv : v ≠ .null) :
    (method name).follow v = .error m ↔ m = .noSuchMethod ∧ v.call? name = none := by
  cases hcall : v.call? name with
  | none =>
      cases v with
      | null => exact absurd rfl hv
      | _ => simp [follow, hcall, eq_comm]
  | some w =>
      cases v with
      | null => exact absurd rfl hv
      | _ => simp [follow, hcall]

theorem follow_index_list_eq_error_iff {raw : String} {items : List Value} :
    (index raw).follow (.list items) = .error m ↔
      (m = .nonNumericIndex ∧ indexOfText? raw = none) ∨
        ∃ place, m = .indexOutOfRange place items.length ∧ indexOfText? raw = some place ∧
          items.length ≤ place := by
  rw [follow]
  cases indexOfText? raw with
  | none => simp [eq_comm]
  | some place =>
      dsimp only
      cases hplace : items[place]? with
      | none =>
          rw [List.getElem?_eq_none_iff] at hplace
          simp [hplace, eq_comm]
      | some w =>
          obtain ⟨hlt, -⟩ := List.getElem?_eq_some_iff.1 hplace
          simp [hlt]

theorem follow_index_eq_error_iff {raw : String} (hv : v ≠ .null)
    (hlist : ∀ items, v ≠ .list items) :
    (index raw).follow v = .error m ↔ m = .notIndexable := by
  cases v with
  | null => exact absurd rfl hv
  | list items => exact absurd rfl (hlist items)
  | _ => simp [follow, eq_comm]

/-- The list is complete, and the errors on it are those that come. -/
theorem leadsNowhere_iff :
    LeadsNowhere walked v step m kind ↔
      step.follow v = .error m ∧ m.kind walked v step = kind := by
  constructor
  · intro h
    cases h with
    | nullTarget hv =>
        subst hv
        exact ⟨rfl, rfl⟩
    | noSuchProperty hv hmap hobject =>
        exact ⟨(follow_property_eq_error_iff hv).2 ⟨rfl, hmap, hobject⟩, rfl⟩
    | noSuchMethod hv hcall => exact ⟨(follow_method_eq_error_iff hv).2 ⟨rfl, hcall⟩, rfl⟩
    | notIndexable hv hlist => exact ⟨(follow_index_eq_error_iff hv hlist).2 rfl, rfl⟩
    | nonNumericIndex hv hraw =>
        subst hv
        exact ⟨follow_index_list_eq_error_iff.2 (.inl ⟨rfl, hraw⟩), rfl⟩
    | indexOutOfRange hv hraw hplace =>
        subst hv
        exact ⟨follow_index_list_eq_error_iff.2 (.inr ⟨_, rfl, hraw, hplace⟩), rfl⟩
  · rintro ⟨hfollow, rfl⟩
    by_cases hv : v = .null
    · subst hv
      cases hfollow
      exact .nullTarget rfl
    · cases step with
      | property name =>
          obtain ⟨rfl, hmap, hobject⟩ := (follow_property_eq_error_iff hv).1 hfollow
          exact .noSuchProperty hv hmap hobject
      | method name =>
          obtain ⟨rfl, hcall⟩ := (follow_method_eq_error_iff hv).1 hfollow
          exact .noSuchMethod hv hcall
      | index raw =>
          by_cases hlist : ∃ items, v = .list items
          · obtain ⟨items, rfl⟩ := hlist
            rcases follow_index_list_eq_error_iff.1 hfollow with
              ⟨rfl, hraw⟩ | ⟨place, rfl, hraw, hplace⟩
            · exact .nonNumericIndex rfl hraw
            · exact .indexOutOfRange rfl hraw hplace
          · have hlist := not_exists.1 hlist
            obtain rfl := (follow_index_eq_error_iff hv hlist).1 hfollow
            exact .notIndexable hv hlist

theorem LeadsNowhere.reason?_eq (h : LeadsNowhere walked v step m kind) :
    kind.reason? = some m := by
  cases h <;> rfl

/-- What is wrong is that the value is null if and only if the error says so. -/
theorem LeadsNowhere.eq_null_iff (h : LeadsNowhere walked v step m kind) :
    v = .null ↔ kind = .nullIntermediate walked step.text := by
  cases h with
  | nullTarget hv => simp [hv]
  | noSuchProperty hv | noSuchMethod hv | notIndexable hv => simp [hv]
  | nonNumericIndex hv | indexOutOfRange hv => simp [hv]

end Segment

namespace Walk

variable {w w' : Walk} {step : Segment}

theorem exists_step_eq_ok_iff {v : Value} :
    (∃ w', w.step step = .ok w' ∧ w'.value = v) ↔
      (step.follow w.value).map Reached.value = .ok v := by
  rw [Walk.step]
  cases step.follow w.value with
  | error m => simp [Except.map]
  | ok reached => simp [Except.map]

theorem step_eq_error_iff {kind : ErrorKind} :
    w.step step = .error kind ↔
      ∃ m, step.follow w.value = .error m ∧ m.kind w.walked w.value step = kind := by
  rw [Walk.step]
  cases step.follow w.value with
  | error m => simp
  | ok reached => simp

theorem walked_of_step (h : w.step step = .ok w') : w'.walked = w.walked ++ "." ++ step.text := by
  rw [Walk.step] at h
  split at h
  next => cases h
  next =>
    cases h
    rfl

/-- A walk goes through the values that its steps lead to. -/
theorem exists_foldlM_step_eq_ok_iff {steps : List Segment} {v : Value} :
    (∃ w', steps.foldlM Walk.step w = .ok w' ∧ w'.value = v) ↔
      Segment.followAll w.value steps = .ok v := by
  induction steps generalizing w with
  | nil =>
      rw [List.foldlM_nil, Segment.followAll, List.foldlM_nil]
      constructor
      · rintro ⟨w', h, rfl⟩
        cases h
        rfl
      · intro h
        cases h
        exact ⟨w, rfl, rfl⟩
  | cons step steps ih =>
      rw [Segment.followAll, List.foldlM_cons, List.foldlM_cons, Except.bind_eq_ok_iff]
      simp only [Except.bind_eq_ok_iff]
      constructor
      · rintro ⟨w', ⟨between, hstep, h⟩, rfl⟩
        exact ⟨between.value, exists_step_eq_ok_iff.1 ⟨between, hstep, rfl⟩, ih.1 ⟨w', h, rfl⟩⟩
      · rintro ⟨u, hstep, h⟩
        obtain ⟨between, hbetween, rfl⟩ := exists_step_eq_ok_iff.2 hstep
        obtain ⟨w', hw', hv⟩ := ih.2 h
        exact ⟨w', ⟨between, hbetween, hw'⟩, hv⟩

end Walk

namespace PathRoot

/-- There is no value at the root, and this is the error. -/
inductive LeadsNowhere (env : Environment) (loops : List Loop) : PathRoot → ErrorKind → Prop where
  | argument {name} (hname : env.arguments.values.get? name = none) :
      LeadsNowhere env loops (.argument name) (.argumentNotFound name)
  | loop (hloops : loops = []) : LeadsNowhere env loops .loop .loopVariableOutsideLoop

variable {root : PathRoot} {env : Environment} {loops : List Loop} {kind : ErrorKind}

theorem leadsNowhere_iff :
    LeadsNowhere env loops root kind ↔ root.resolve env loops = .error kind := by
  cases root with
  | argument name =>
      rw [resolve]
      cases hname : env.arguments.values.get? name with
      | none =>
          constructor
          · rintro ⟨⟩
            rfl
          · intro h
            cases h
            exact .argument hname
      | some v =>
          constructor
          · rintro ⟨h⟩
            cases hname.symm.trans h
          · intro h
            cases h
  | loop =>
      cases loops with
      | nil =>
          constructor
          · rintro ⟨⟩
            rfl
          · intro h
            cases h
            exact .loop rfl
      | cons l ls =>
          constructor
          · intro h
            cases h with
            | loop hloops => cases hloops
          · intro h
            cases h

theorem LeadsNowhere.reason?_eq (h : LeadsNowhere env loops root kind) : kind.reason? = none := by
  cases h <;> rfl

end PathRoot

namespace Path

/-- The path of the first steps. -/
def upTo (p : Path) (k : Nat) : Path :=
  ⟨p.root, p.segments.take k⟩

theorem text_concat (root : PathRoot) (steps : List Segment) (step : Segment) :
    (Path.mk root (steps ++ [step])).text = (Path.mk root steps).text ++ "." ++ step.text := by
  rw [text, text, List.map_append, List.map_singleton]
  generalize root.text = first
  generalize steps.map Segment.text = texts
  induction texts generalizing first with
  | nil =>
      rw [List.nil_append, String.intercalate_cons_cons, String.intercalate_singleton,
        String.intercalate_singleton]
  | cons next texts ih =>
      rw [List.cons_append, String.intercalate_cons_cons, ih, String.intercalate_cons_cons]
      simp only [String.append_assoc]

theorem walked_of_foldlM {root : PathRoot} {steps : List Segment} {v : Value} {type : ValueType}
    {w : Walk} (h : steps.foldlM Walk.step ⟨v, type, root.text⟩ = .ok w) :
    w.walked = (Path.mk root steps).text := by
  induction steps using List.reverseRecOn generalizing w with
  | nil =>
      cases h
      rfl
  | append_singleton steps step ih =>
      rw [List.foldlM_append] at h
      obtain ⟨before, hbefore, h⟩ := Except.bind_eq_ok_iff.1 h
      obtain ⟨after, hstep, h⟩ := Except.bind_eq_ok_iff.1 h
      cases h
      rw [Walk.walked_of_step hstep, ih hbefore, text_concat]

variable {p : Path} {expression : String} {env : Environment} {loops : List Loop}

/-- The path is followed from the value at its root. -/
theorem exists_walk_iff {v : Value} :
    (p.resolve expression env loops).map Resolved.target = .ok v ↔
      ∃ first type w, p.root.resolve env loops = .ok (first, type) ∧
        p.segments.foldlM Walk.step ⟨first, type, p.root.text⟩ = .ok w ∧ w.value = v := by
  rw [Except.map_eq_ok_iff]
  simp only [resolve, Except.mapError_eq_ok_iff]
  constructor
  · rintro ⟨r, hr, rfl⟩
    obtain ⟨⟨first, type⟩, hroot, hr⟩ := Except.bind_eq_ok_iff.1 hr
    obtain ⟨w, hw, hr⟩ := Except.bind_eq_ok_iff.1 hr
    cases hr
    exact ⟨first, type, w, hroot, hw, rfl⟩
  · rintro ⟨first, type, w, hroot, hw, rfl⟩
    refine ⟨⟨first, type, w.value, w.type, none⟩, ?_, rfl⟩
    exact Except.bind_eq_ok_iff.2 ⟨_, hroot, Except.bind_eq_ok_iff.2 ⟨w, hw, rfl⟩⟩

theorem map_target_eq_ok_iff {v : Value} :
    (p.resolve expression env loops).map Resolved.target = .ok v ↔
      ∃ first, (p.root.resolve env loops).map Prod.fst = .ok first ∧
        Segment.followAll first p.segments = .ok v := by
  rw [exists_walk_iff]
  constructor
  · rintro ⟨first, type, w, hroot, hw⟩
    exact ⟨first, by rw [hroot]; rfl, Walk.exists_foldlM_step_eq_ok_iff.1 ⟨w, hw⟩⟩
  · rintro ⟨first, hfirst, h⟩
    obtain ⟨⟨first, type⟩, hroot, rfl⟩ := Except.map_eq_ok_iff.1 hfirst
    obtain ⟨w, hw⟩ := (Walk.exists_foldlM_step_eq_ok_iff (w := ⟨first, type, p.root.text⟩)).2 h
    exact ⟨first, type, w, hroot, hw⟩

/-- The first steps lead to the value, and the next one leads nowhere from there, as listed. -/
structure StopsAt (p : Path) (expression : String) (env : Environment) (loops : List Loop) (k : Nat)
    (v : Value) (step : Segment) (m : Missing) : Prop where
  reached : ((p.upTo k).resolve expression env loops).map Resolved.target = .ok v
  next : p.segments[k]? = some step
  nowhere : ∃ kind, step.LeadsNowhere (p.upTo k).text v m kind

theorem stopsAt_iff {k : Nat} {v : Value} {step : Segment} {m : Missing} :
    p.StopsAt expression env loops k v step m ↔
      ((p.upTo k).resolve expression env loops).map Resolved.target = .ok v ∧
        p.segments[k]? = some step ∧ step.follow v = .error m := by
  constructor
  · rintro ⟨hreached, hnext, kind, hkind⟩
    exact ⟨hreached, hnext, (Segment.leadsNowhere_iff.1 hkind).1⟩
  · rintro ⟨hreached, hnext, hm⟩
    exact ⟨hreached, hnext, _, Segment.leadsNowhere_iff.2 ⟨hm, rfl⟩⟩

theorem StopsAt.missing {k : Nat} {v : Value} {step : Segment} {m : Missing}
    (h : p.StopsAt expression env loops k v step m) : step.follow v = .error m :=
  (stopsAt_iff.1 h).2.2

theorem StopsAt.exists_first {k : Nat} {v : Value} {step : Segment} {m : Missing}
    (h : p.StopsAt expression env loops k v step m) :
    ∃ first, (p.root.resolve env loops).map Prod.fst = .ok first ∧
      Segment.followAll first (p.segments.take k) = .ok v :=
  map_target_eq_ok_iff.1 h.reached

/-- A path stops at one step at most. -/
theorem StopsAt.unique {k k' : Nat} {v v' : Value} {step step' : Segment} {m m' : Missing}
    (h : p.StopsAt expression env loops k v step m)
    (h' : p.StopsAt expression env loops k' v' step' m') :
    k' = k ∧ v' = v ∧ step' = step ∧ m' = m := by
  obtain ⟨first, hfirst, hreached⟩ := h.exists_first
  obtain ⟨first', hfirst', hreached'⟩ := h'.exists_first
  cases hfirst.symm.trans hfirst'
  have hfails := (Except.map_eq_error_iff (f := Reached.value)).2 h.missing
  have hfails' := (Except.map_eq_error_iff (f := Reached.value)).2 h'.missing
  obtain rfl : k' = k :=
    le_antisymm (Except.le_of_foldlM_take_eq_ok hreached h.next hfails hreached')
      (Except.le_of_foldlM_take_eq_ok hreached' h'.next hfails' hreached)
  cases hreached.symm.trans hreached'
  cases h.next.symm.trans h'.next
  cases h.missing.symm.trans h'.missing
  exact ⟨rfl, rfl, rfl, rfl⟩

/-- A path cannot be followed if there is no value at its root or if it stops at a step. -/
theorem resolve_eq_error_iff {e : TemplateError} :
    p.resolve expression env loops = .error e ↔
      (∃ kind, p.root.LeadsNowhere env loops kind ∧ env.error kind expression = e) ∨
        ∃ k v step m, p.StopsAt expression env loops k v step m ∧
          env.error (m.kind (p.upTo k).text v step) expression = e := by
  rw [resolve, Except.mapError_eq_error_iff, follow]
  simp only [Except.bind_eq_error_iff, Except.foldlM_eq_error_iff]
  constructor
  · rintro ⟨kind, hroot | ⟨⟨first, type⟩, hroot, ⟨k, step, w, hw, hnext, hstep⟩ | ⟨w, -, h⟩⟩, rfl⟩
    · exact .inl ⟨kind, PathRoot.leadsNowhere_iff.2 hroot, rfl⟩
    · obtain ⟨m, hm, rfl⟩ := Walk.step_eq_error_iff.1 hstep
      rw [walked_of_foldlM hw]
      refine .inr ⟨k, w.value, step, m, stopsAt_iff.2 ⟨?_, hnext, hm⟩, rfl⟩
      exact exists_walk_iff.2 ⟨first, type, w, hroot, hw, rfl⟩
    · cases h
  · rintro (⟨kind, hroot, rfl⟩ | ⟨k, v, step, m, hstops, rfl⟩)
    · exact ⟨kind, .inl (PathRoot.leadsNowhere_iff.1 hroot), rfl⟩
    · obtain ⟨hreached, hnext, hm⟩ := stopsAt_iff.1 hstops
      obtain ⟨first, type, w, hroot, hw, rfl⟩ := exists_walk_iff.1 hreached
      refine ⟨_, .inr ⟨(first, type), hroot, .inl ⟨k, step, w, hw, hnext, ?_⟩⟩, rfl⟩
      exact Walk.step_eq_error_iff.2 ⟨m, hm, by rw [walked_of_foldlM hw, upTo]⟩

/-- A path leads to where its steps lead from the value at its root, and so to where the other steps
lead from the value that the first ones lead to. If it leads nowhere there is no value at its root,
or there is exactly one step at which it stops; the error names that step, behind the text of the
first ones and with the type of the value that they lead to. -/
theorem resolve_by_steps (p : Path) (expression : String) (env : Environment)
    (loops : List Loop) :
    (∀ v, (p.resolve expression env loops).map Resolved.target = .ok v ↔
      ∃ first, (p.root.resolve env loops).map Prod.fst = .ok first ∧
        Segment.followAll first p.segments = .ok v) ∧
    (∀ k v, (p.resolve expression env loops).map Resolved.target = .ok v ↔
      ∃ u, ((p.upTo k).resolve expression env loops).map Resolved.target = .ok u ∧
        Segment.followAll u (p.segments.drop k) = .ok v) ∧
    (∀ e, p.resolve expression env loops = .error e ↔
      (∃ kind, p.root.LeadsNowhere env loops kind ∧ kind.reason? = none ∧
        e = env.error kind expression) ∨
      (∃! k, ∃ v step m, p.StopsAt expression env loops k v step m) ∧
        ∀ k v step m, p.StopsAt expression env loops k v step m →
          ∃ kind, step.LeadsNowhere (p.upTo k).text v m kind ∧ kind.reason? = some m ∧
            (v = .null ↔ kind = .nullIntermediate (p.upTo k).text step.text) ∧
            e = env.error kind expression) := by
  refine ⟨fun v => map_target_eq_ok_iff, fun k v => ?_, fun e => ?_⟩
  · have hcut (first : Value) : Segment.followAll first p.segments = .ok v ↔
        ∃ u, Segment.followAll first (p.segments.take k) = .ok u ∧
          Segment.followAll u (p.segments.drop k) = .ok v := by
      rw [← Segment.followAll_append_eq_ok_iff, List.take_append_drop]
    simp only [map_target_eq_ok_iff, hcut]
    exact ⟨fun ⟨first, hfirst, u, hu, h⟩ => ⟨u, ⟨first, hfirst, hu⟩, h⟩,
      fun ⟨u, ⟨first, hfirst, hu⟩, h⟩ => ⟨first, hfirst, u, hu, h⟩⟩
  · rw [resolve_eq_error_iff]
    refine or_congr ⟨?_, ?_⟩ ⟨?_, ?_⟩
    · rintro ⟨kind, hkind, rfl⟩
      exact ⟨kind, hkind, hkind.reason?_eq, rfl⟩
    · rintro ⟨kind, hkind, -, rfl⟩
      exact ⟨kind, hkind, rfl⟩
    · rintro ⟨k, v, step, m, hstops, rfl⟩
      refine ⟨⟨k, ⟨v, step, m, hstops⟩, ?_⟩, ?_⟩
      · rintro k' ⟨v', step', m', hstops'⟩
        exact (hstops.unique hstops').1
      · intro k' v' step' m' hstops'
        obtain ⟨rfl, rfl, rfl, rfl⟩ := hstops.unique hstops'
        have hnowhere : step'.LeadsNowhere (p.upTo k').text v' m' _ :=
          Segment.leadsNowhere_iff.2 ⟨hstops.missing, rfl⟩
        exact ⟨_, hnowhere, hnowhere.reason?_eq, hnowhere.eq_null_iff, rfl⟩
    · rintro ⟨⟨k, ⟨v, step, m, hstops⟩, -⟩, hall⟩
      obtain ⟨kind, hnowhere, -, -, rfl⟩ := hall k v step m hstops
      obtain ⟨-, rfl⟩ := Segment.leadsNowhere_iff.1 hnowhere
      exact ⟨k, v, step, m, hstops, rfl⟩

end Path

end SqlTemplate
