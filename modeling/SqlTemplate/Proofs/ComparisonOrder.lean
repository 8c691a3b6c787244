import Mathlib
import SqlTemplate.Proofs.ValueEquality
import SqlTemplate.Value.Comparison

/-!
# Comparing values is consistent

The comparisons of a condition go back to one relation: two values stand in an order if one of them
is null, if both have decimals, or if both are dates (`Orders`). What has no decimal, and what is
neither a number nor a date, stands in an order with null only. A comparison of values that stand in
an order has an answer, and all operators read it off that order (`compare_of_orders`). Of other
values nothing can be said but whether they are equal.

So the sides of a comparison can be exchanged, of less, equal and greater exactly one holds, and
comparing is transitive (`compare_consistent`).
-/

namespace SqlTemplate

open Number (Binary64 Decimal)

namespace Operator

/-- The operator that says the same of exchanged sides. -/
def converse : Operator → Operator
  | .eq => .eq
  | .ne => .ne
  | .ge => .le
  | .le => .ge
  | .gt => .lt
  | .lt => .gt

theorem accepts_converse (operator : Operator) (o : Ordering) :
    operator.converse.accepts o.swap = operator.accepts o := by
  cases operator <;> cases o <;> rfl

/-- The operator with the given symbol. -/
def ofSymbol? (symbol : String) : Option Operator :=
  [eq, ne, ge, le, gt, lt].find? fun operator => operator.symbol = symbol

theorem ofSymbol?_symbol (operator : Operator) : ofSymbol? operator.symbol = some operator := by
  cases operator <;> decide

end Operator

namespace ErrorKind

/-- The symbol of an operator with another operator in place of that one. -/
def changeSymbol (change : Operator → Operator) (symbol : String) : String :=
  ((Operator.ofSymbol? symbol).map fun operator => (change operator).symbol).getD symbol

theorem changeSymbol_symbol (change : Operator → Operator) (operator : Operator) :
    changeSymbol change operator.symbol = (change operator).symbol := by
  rw [changeSymbol, Operator.ofSymbol?_symbol]
  rfl

/-- The fault of a comparison with its sides exchanged. -/
def converse : ErrorKind → ErrorKind
  | .typeMismatch left right => .typeMismatch right left
  | .unsupportedComparison symbol left right =>
    .unsupportedComparison (changeSymbol Operator.converse symbol) right left
  | kind => kind

end ErrorKind

namespace Value

section Kinds

variable {a b : Value}

theorem isNumber_of_toDecimal? {x : Decimal} (h : a.toDecimal? = some x) : a.isNumber = true := by
  cases a <;> first | rfl | cases h

theorem isDate_of_toDateTime? {t : Calendar.DateTime} (h : a.toDateTime? = some t) :
    a.isDate = true :=
  (isSome_toDateTime?_iff a).1 (Option.isSome_of_eq_some h)

theorem not_null_of_isNumber (h : a.isNumber = true) : a.isNull = false ∧ a.isDate = false := by
  cases a <;> first | exact ⟨rfl, rfl⟩ | cases h

theorem not_null_of_isDate (h : a.isDate = true) : a.isNull = false ∧ a.isNumber = false := by
  cases a <;> first | exact ⟨rfl, rfl⟩ | cases h

end Kinds

/-- Two values stand in an order: null before everything else, numbers as their decimals, dates as
the times at which they begin. -/
inductive Orders : Value → Value → Ordering → Prop where
  | null : Orders .null .null .eq
  | nullLeft {b : Value} (h : b.isNull = false) : Orders .null b .lt
  | nullRight {a : Value} (h : a.isNull = false) : Orders a .null .gt
  | numbers {a b : Value} {x y : Decimal} (ha : a.toDecimal? = some x)
      (hb : b.toDecimal? = some y) : Orders a b (x.compare y)
  | dates {a b : Value} {s t : Calendar.DateTime} (ha : a.toDateTime? = some s)
      (hb : b.toDateTime? = some t) : Orders a b (s.compare t)

/-- Null comes before everything but null. -/
theorem orders_null (a : Value) : Orders .null a (if a.isNull then .eq else .lt) := by
  cases hnull : a.isNull with
  | false => exact .nullLeft hnull
  | true =>
      obtain rfl := (isNull_iff a).1 hnull
      exact .null

/-- Two values have an order of their own if both are numbers with a decimal or both are dates. -/
theorem order?_eq_some_iff {a b : Value} {o : Ordering} :
    order? a b = some o ↔
      (∃ x y, a.toDecimal? = some x ∧ b.toDecimal? = some y ∧ x.compare y = o) ∨
        ∃ s t, a.toDateTime? = some s ∧ b.toDateTime? = some t ∧ s.compare t = o := by
  rw [order?]
  constructor
  · intro h
    split at h
    next =>
      obtain ⟨x, hx, h⟩ := Option.bind_eq_some_iff.1 h
      obtain ⟨y, hy, h⟩ := Option.bind_eq_some_iff.1 h
      exact .inl ⟨x, y, hx, hy, Option.some.inj h⟩
    next =>
      split at h
      next =>
        obtain ⟨s, hs, h⟩ := Option.bind_eq_some_iff.1 h
        obtain ⟨t, ht, h⟩ := Option.bind_eq_some_iff.1 h
        exact .inr ⟨s, t, hs, ht, Option.some.inj h⟩
      next => cases h
  · rintro (⟨x, y, hx, hy, rfl⟩ | ⟨s, t, hs, ht, rfl⟩)
    · simp [isNumber_of_toDecimal? hx, isNumber_of_toDecimal? hy, hx, hy]
    · have ha := isDate_of_toDateTime? hs
      have hb := isDate_of_toDateTime? ht
      simp [(not_null_of_isDate ha).2, ha, hb, hs, ht]

theorem orderNullFirst?_eq_some_iff {a b : Value} {o : Ordering} :
    orderNullFirst? a b = some o ↔ Orders a b o := by
  constructor
  · intro h
    rw [orderNullFirst?] at h
    split at h
    next ha hb =>
      cases h
      obtain rfl := (isNull_iff a).1 ha
      obtain rfl := (isNull_iff b).1 hb
      exact .null
    next ha hb =>
      cases h
      obtain rfl := (isNull_iff a).1 ha
      exact .nullLeft hb
    next ha hb =>
      cases h
      obtain rfl := (isNull_iff b).1 hb
      exact .nullRight ha
    next =>
      rcases order?_eq_some_iff.1 h with ⟨x, y, hx, hy, rfl⟩ | ⟨s, t, hs, ht, rfl⟩
      · exact .numbers hx hy
      · exact .dates hs ht
  · intro h
    cases h with
    | null => rfl
    | nullLeft hb =>
        rw [orderNullFirst?, hb]
        rfl
    | nullRight ha =>
        rw [orderNullFirst?, ha]
        rfl
    | numbers ha hb =>
        rw [orderNullFirst?, (not_null_of_isNumber (isNumber_of_toDecimal? ha)).1,
          (not_null_of_isNumber (isNumber_of_toDecimal? hb)).1]
        exact order?_eq_some_iff.2 (.inl ⟨_, _, ha, hb, rfl⟩)
    | dates ha hb =>
        rw [orderNullFirst?, (not_null_of_isDate (isDate_of_toDateTime? ha)).1,
          (not_null_of_isDate (isDate_of_toDateTime? hb)).1]
        exact order?_eq_some_iff.2 (.inr ⟨_, _, ha, hb, rfl⟩)

namespace Orders

variable {a b c : Value} {o o' : Ordering}

theorem swap (h : Orders a b o) : Orders b a o.swap := by
  cases h with
  | null => exact .null
  | nullLeft hb => exact .nullRight hb
  | nullRight ha => exact .nullLeft ha
  | numbers ha hb =>
      rw [← Std.OrientedCmp.eq_swap]
      exact .numbers hb ha
  | dates ha hb =>
      rw [← Std.OrientedCmp.eq_swap]
      exact .dates hb ha

/-- A value that is not behind one that is not behind a third one is not behind that one. -/
theorem isLE_trans (hab : Orders a b o) (hbc : Orders b c o') (ho : o.isLE = true)
    (ho' : o'.isLE = true) : ∃ o'', Orders a c o'' ∧ o''.isLE = true := by
  cases hab with
  | null => exact ⟨o', hbc, ho'⟩
  | nullRight => cases ho
  | nullLeft =>
      refine ⟨_, orders_null c, ?_⟩
      cases c.isNull <;> rfl
  | numbers ha hb =>
      cases hbc with
      | null => cases hb
      | nullLeft => cases hb
      | nullRight => cases ho'
      | numbers hb' hc =>
          cases hb.symm.trans hb'
          exact ⟨_, .numbers ha hc, Std.TransCmp.isLE_trans ho ho'⟩
      | dates hb' =>
          have hnumber := (not_null_of_isDate (isDate_of_toDateTime? hb')).2
          cases hnumber.symm.trans (isNumber_of_toDecimal? hb)
  | dates ha hb =>
      cases hbc with
      | null => cases hb
      | nullLeft => cases hb
      | nullRight => cases ho'
      | numbers hb' =>
          have hdate := (not_null_of_isNumber (isNumber_of_toDecimal? hb')).2
          cases hdate.symm.trans (isDate_of_toDateTime? hb)
      | dates hb' hc =>
          cases hb.symm.trans hb'
          exact ⟨_, .dates ha hc, Std.TransCmp.isLE_trans ho ho'⟩

theorem unique (h : Orders a b o) (h' : Orders a b o') : o = o' := by
  rw [← orderNullFirst?_eq_some_iff] at h h'
  exact Option.some.inj (h.symm.trans h')

theorem eq_trans (hab : Orders a b .eq) (hbc : Orders b c .eq) : Orders a c .eq := by
  obtain ⟨o, hac, ho⟩ := hab.isLE_trans hbc rfl rfl
  obtain ⟨o', hca, ho'⟩ := hbc.swap.isLE_trans hab.swap rfl rfl
  obtain rfl := hca.unique hac.swap
  cases o with
  | lt => cases ho'
  | eq => exact hac
  | gt => cases ho

/-- Where neither value comes before the other, both are null unless they are numbers with a decimal
or dates. -/
theorem eq_null (h : Orders a b .eq) (hdecimal : a.toDecimal? = none) (hdate : a.isDate = false) :
    a = .null ∧ b = .null := by
  generalize ho : Ordering.eq = o at h
  cases h with
  | null => exact ⟨rfl, rfl⟩
  | nullLeft => cases ho
  | nullRight => cases ho
  | numbers ha => cases hdecimal.symm.trans ha
  | dates ha => cases hdate.symm.trans (isDate_of_toDateTime? ha)

/-- Values that stand in an order are the same if neither comes before the other. -/
theorem sameAs_eq (h : Orders a b o) : sameAs a b = o.isEq := by
  cases h with
  | null => rfl
  | nullLeft hb =>
      cases h : sameAs .null b with
      | false => rfl
      | true =>
          have hnull : Value.null.isNull = b.isNull := (kind_eq_of_equals h).1
          cases hnull.trans hb
  | nullRight ha =>
      cases h : sameAs a .null with
      | false => rfl
      | true =>
          rw [sameAs] at h
          simp only [isNumber, isDate, Bool.and_false] at h
          cases ha.symm.trans (kind_eq_of_equals h).1
  | @numbers a b x y ha hb =>
      rw [sameAs, isNumber_of_toDecimal? ha, isNumber_of_toDecimal? hb, ha, hb,
        Bool.eq_iff_iff, Ordering.isEq_iff_eq_eq]
      exact (Decimal.compare_eq_iff x y).symm
  | @dates a b s t ha hb =>
      have hdate := isDate_of_toDateTime? ha
      rw [sameAs, (not_null_of_isDate hdate).2, hdate, isDate_of_toDateTime? hb, ha, hb,
        Bool.eq_iff_iff, Ordering.isEq_iff_eq_eq, Calendar.DateTime.compare_eq_iff]
      simp

/-- Values that stand in an order do not mismatch. -/
theorem mismatch_eq (h : Orders a b o) :
    (mismatch isNumber a b || mismatch isDate a b) = false := by
  cases h with
  | null => rfl
  | nullLeft => simp [mismatch, isNumber, isDate, isNull]
  | nullRight => simp [mismatch, isNumber, isDate, isNull]
  | numbers ha hb =>
      have ha := isNumber_of_toDecimal? ha
      have hb := isNumber_of_toDecimal? hb
      simp [mismatch, ha, hb, (not_null_of_isNumber ha).2, (not_null_of_isNumber hb).2]
  | dates ha hb =>
      have ha := isDate_of_toDateTime? ha
      have hb := isDate_of_toDateTime? hb
      simp [mismatch, ha, hb, (not_null_of_isDate ha).2, (not_null_of_isDate hb).2]

end Orders

theorem orderNullFirst?_swap (a b : Value) :
    orderNullFirst? b a = (orderNullFirst? a b).map Ordering.swap := by
  cases h : orderNullFirst? a b with
  | some o => exact orderNullFirst?_eq_some_iff.2 (orderNullFirst?_eq_some_iff.1 h).swap
  | none =>
      refine Option.eq_none_iff_forall_ne_some.2 fun o ho => ?_
      rw [orderNullFirst?_eq_some_iff.2 (orderNullFirst?_eq_some_iff.1 ho).swap] at h
      cases h

theorem mismatch_comm (kind : Value → Bool) (a b : Value) :
    mismatch kind b a = mismatch kind a b :=
  Bool.or_comm _ _

/-- Values that are both of a kind, or neither, do not mismatch in it. -/
theorem mismatch_eq_of_kind_eq {a b : Value} {kind : Value → Bool}
    (h : kind a = kind b) : mismatch kind a b = false := by
  rw [mismatch, h]
  cases kind b <;> simp

section Sameness

variable {a b c : Value}

theorem isSome_toDecimal?_of_equals (h : a.equals b = true) :
    a.toDecimal?.isSome = b.toDecimal?.isSome := by
  rw [equals_iff_equalBy] at h
  cases h with
  | float64 h => exact Decimal.isSome_ofBinary64?_of_equals h
  | _ => rfl

/-- A condition holds two values for the same if neither comes before the other, or if they are
equal and are neither numbers with a decimal nor dates. -/
theorem sameAs_iff : sameAs a b = true ↔
    Orders a b .eq ∨ a.equals b = true ∧ a.toDecimal? = none ∧ a.isDate = false := by
  constructor
  · intro h
    rw [sameAs] at h
    split at h
    next hnumbers =>
      rw [Bool.and_eq_true] at hnumbers
      split at h
      next x y ha hb => exact .inl ((Decimal.compare_eq_iff x y).2 h ▸ .numbers ha hb)
      next hnone =>
        refine .inr ⟨h, ?_, (not_null_of_isNumber hnumbers.1).2⟩
        -- Else both had a decimal, for one of two equal values has none without the other.
        by_contra hsome
        obtain ⟨x, hx⟩ := Option.ne_none_iff_exists'.1 hsome
        have hb := isSome_toDecimal?_of_equals h
        rw [hx] at hb
        obtain ⟨y, hy⟩ := Option.isSome_iff_exists.1 hb.symm
        exact hnone x y hx hy
    next hnumbers =>
      split at h
      next hdates =>
        rw [Bool.and_eq_true, ← isSome_toDateTime?_iff, ← isSome_toDateTime?_iff] at hdates
        obtain ⟨s, hs⟩ := Option.isSome_iff_exists.1 hdates.1
        obtain ⟨t, ht⟩ := Option.isSome_iff_exists.1 hdates.2
        rw [hs, ht, beq_iff_eq, Option.some_inj] at h
        exact .inl ((Calendar.DateTime.compare_eq_iff s t).2 h ▸ .dates hs ht)
      next hdates =>
        obtain ⟨-, hnumber, hdate⟩ := kind_eq_of_equals h
        rw [← hnumber, Bool.and_self] at hnumbers
        rw [← hdate, Bool.and_self] at hdates
        refine .inr ⟨h, Option.eq_none_iff_forall_ne_some.2 fun x hx => ?_, by simpa using hdates⟩
        exact hnumbers (isNumber_of_toDecimal? hx)
  · rintro (h | ⟨h, hdecimal, hdate⟩)
    · exact h.sameAs_eq
    · rw [sameAs]
      split
      next =>
        split
        next x y hx hy => cases hdecimal.symm.trans hx
        next => exact h
      next =>
        rw [hdate, Bool.false_and]
        exact h

/-- What is equal to a value that is neither a number with a decimal nor a date is neither. -/
theorem unordered_of_equals (h : a.equals b = true) (hdecimal : a.toDecimal? = none)
    (hdate : a.isDate = false) : b.toDecimal? = none ∧ b.isDate = false := by
  refine ⟨?_, (kind_eq_of_equals h).2.2 ▸ hdate⟩
  rw [← Option.not_isSome_iff_eq_none, ← isSome_toDecimal?_of_equals h, hdecimal]
  exact Bool.false_ne_true

theorem sameAs_symm (ha : a.HasDistinctKeys) (h : sameAs a b = true) : sameAs b a = true := by
  rw [sameAs_iff] at h ⊢
  rcases h with h | ⟨h, hdecimal, hdate⟩
  · exact .inl h.swap
  · exact .inr ⟨equals_symm ha h, unordered_of_equals h hdecimal hdate⟩

theorem sameAs_comm (ha : a.HasDistinctKeys) (hb : b.HasDistinctKeys) :
    sameAs b a = sameAs a b :=
  Bool.eq_iff_iff.2 ⟨sameAs_symm hb, sameAs_symm ha⟩

theorem sameAs_trans (hab : sameAs a b = true) (hbc : sameAs b c = true) :
    sameAs a c = true := by
  rw [sameAs_iff] at hab hbc ⊢
  rcases hab with hab | ⟨hab, hdecimal, hdate⟩
  · rcases hbc with hbc | ⟨hbc, hdecimal, hdate⟩
    · exact .inl (hab.eq_trans hbc)
    · obtain ⟨rfl, rfl⟩ := hab.swap.eq_null hdecimal hdate
      exact .inr ⟨hbc, hdecimal, hdate⟩
  · rcases hbc with hbc | ⟨hbc, -, -⟩
    · obtain ⟨hdecimal', hdate'⟩ := unordered_of_equals hab hdecimal hdate
      obtain ⟨rfl, rfl⟩ := hbc.eq_null hdecimal' hdate'
      exact .inr ⟨hab, hdecimal, hdate⟩
    · exact .inr ⟨equals_trans hab hbc, hdecimal, hdate⟩

end Sameness

section Compare

variable {a b c : Value}

/-- Every operator has an answer between values that stand in an order. -/
theorem compare_of_orders {o : Ordering} (h : Orders a b o) (operator : Operator) :
    compare operator a b = .ok (operator.accepts o) := by
  have horder := orderNullFirst?_eq_some_iff.2 h
  rw [compare.eq_def, h.mismatch_eq, h.sameAs_eq, horder]
  cases operator <;> cases o <;> rfl

/-- What the operators other than `==` and `!=` have an answer to stands in an order. -/
theorem exists_orders_of_compare {operator : Operator} {answer : Bool}
    (h : compare operator a b = .ok answer) (hoperator : operator ≠ .eq ∧ operator ≠ .ne) :
    ∃ o, Orders a b o ∧ operator.accepts o = answer := by
  rw [compare.eq_def] at h
  split at h
  next => cases h
  next =>
    split at h
    next => exact absurd rfl hoperator.1
    next => exact absurd rfl hoperator.2
    next =>
      split at h
      next o ho => exact ⟨o, orderNullFirst?_eq_some_iff.1 ho, Except.ok.inj h⟩
      next => cases h

/-- What a condition holds for the same, it has an answer about. -/
theorem compare_eq_iff : compare .eq a b = .ok true ↔ sameAs a b = true := by
  constructor
  · intro h
    rw [compare] at h
    split at h
    next => cases h
    next => exact Except.ok.inj h
  · intro h
    rcases sameAs_iff.1 h with h | ⟨hequals, -⟩
    · exact compare_of_orders h .eq
    · obtain ⟨-, hnumber, hdate⟩ := kind_eq_of_equals hequals
      rw [compare, mismatch_eq_of_kind_eq hnumber, mismatch_eq_of_kind_eq hdate, h]
      rfl

/-- A comparison says the same with its sides exchanged, and where it fails it fails so too. -/
theorem compare_converse (ha : a.HasDistinctKeys) (hb : b.HasDistinctKeys) (operator : Operator) :
    compare operator.converse b a = (compare operator a b).mapError ErrorKind.converse := by
  rw [compare.eq_def, compare.eq_def, mismatch_comm isNumber a b, mismatch_comm isDate a b,
    sameAs_comm ha hb, orderNullFirst?_swap a b]
  split
  next => rfl
  next =>
    cases operator with
    | eq => rfl
    | ne => rfl
    | _ =>
        cases orderNullFirst? a b with
        | none =>
            simp only [Except.mapError, ErrorKind.converse, ErrorKind.changeSymbol_symbol]
            rfl
        | some o => exact congrArg Except.ok (Operator.accepts_converse _ o)

/-- Comparing is a consistent order with null before everything else: the sides of a comparison can
be exchanged; where `<` has an answer, exactly one of `<`, `==` and `>` holds and `<=` and `>=` say
what they are made of; `<=` and `==` are transitive. -/
theorem compare_consistent {a b : Value} (c : Value) (ha : a.HasDistinctKeys)
    (hb : b.HasDistinctKeys) :
    (∀ operator, compare operator.converse b a =
      (compare operator a b).mapError ErrorKind.converse) ∧
    (∀ less, compare .lt a b = .ok less → ∃ same greater,
      compare .eq a b = .ok same ∧ compare .gt a b = .ok greater ∧
        [less, same, greater].count true = 1 ∧
        compare .le a b = .ok (less || same) ∧ compare .ge a b = .ok (greater || same)) ∧
    (compare .le a b = .ok true → compare .le b c = .ok true → compare .le a c = .ok true) ∧
    (compare .eq a b = .ok true → compare .eq b c = .ok true → compare .eq a c = .ok true) ∧
    compare .le .null a = .ok true ∧ compare .le a .null = .ok a.isNull := by
  refine ⟨compare_converse ha hb, fun less hless => ?_, fun hab hbc => ?_, fun hab hbc => ?_, ?_,
    ?_⟩
  · obtain ⟨o, ho, rfl⟩ := exists_orders_of_compare hless ⟨nofun, nofun⟩
    refine ⟨o.isEq, o.isGT, compare_of_orders ho .eq, compare_of_orders ho .gt, ?_, ?_, ?_⟩
    · cases o <;> rfl
    · rw [compare_of_orders ho]
      cases o <;> rfl
    · rw [compare_of_orders ho]
      cases o <;> rfl
  · obtain ⟨o, ho, hle⟩ := exists_orders_of_compare hab ⟨nofun, nofun⟩
    obtain ⟨o', ho', hle'⟩ := exists_orders_of_compare hbc ⟨nofun, nofun⟩
    obtain ⟨o'', ho'', hle''⟩ := ho.isLE_trans ho' hle hle'
    rw [compare_of_orders ho'']
    exact congrArg Except.ok hle''
  · rw [compare_eq_iff] at *
    exact sameAs_trans hab hbc
  · rw [compare_of_orders (orders_null a)]
    cases a.isNull <;> rfl
  · rw [compare_of_orders (orders_null a).swap]
    cases a.isNull <;> rfl

/-- Maps compare as equal whatever the order of their keys. -/
theorem compare_consistent_maps :
    let a : Value := .map [("x", .int32 1), ("y", .null)]
    let b : Value := .map [("y", .null), ("x", .int32 1)]
    a.HasDistinctKeys ∧ b.HasDistinctKeys ∧ compare .eq a b = .ok true ∧
      compare .eq b a = (compare .eq a b).mapError ErrorKind.converse ∧
      compare .eq a a = .ok true := by
  intro a b
  have hscalar : ∀ name v, (name, v) ∈ [("x", Value.int32 1), ("y", .null)] →
      v.HasDistinctKeys := by
    intro name v h
    simp only [List.mem_cons, Prod.mk.injEq, List.not_mem_nil, or_false] at h
    rcases h with ⟨-, rfl⟩ | ⟨-, rfl⟩ <;> exact .intro nofun nofun
  have ha : a.HasDistinctKeys := .map (by decide) hscalar
  have hb : b.HasDistinctKeys :=
    .map (by decide) fun name v h => hscalar name v (by simpa [or_comm] using h)
  have hab : compare .eq a b = .ok true := by decide
  have hba : compare .eq b a = .ok true := by decide
  have hconsistent := compare_consistent a ha hb
  exact ⟨ha, hb, hab, hconsistent.1 .eq, hconsistent.2.2.2.1 hab hba⟩

end Compare

end Value

end SqlTemplate
