import Mathlib
import SqlTemplate.Proofs.JsonValues
import SqlTemplate.Proofs.Orders

/-!
# Equality of values as a relation

Two values are equal if they are of one kind and denote one thing, and lists and maps if their parts
are equal (`EqualBy`, `equals_iff_equalBy`). So what is said of equality is proved from a value's
parts to the value (`parts_induction`).

Equality is transitive. It is symmetric on values whose maps have each key once, as maps are meant
to have them: of two maps of one size one could else have a key twice and the other a key that the
first one has not.
-/

namespace SqlTemplate

open Number (Binary64 Decimal)

namespace Value

/-- The values that a value is made of. -/
inductive IsPart : Value → Value → Prop where
  | item {v : Value} {items : List Value} (h : v ∈ items) : IsPart v (.list items)
  | entry {name : String} {v : Value} {entries : Entries Value} (h : (name, v) ∈ entries) :
      IsPart v (.map entries)

theorem IsPart.sizeOf_lt {v w : Value} (h : IsPart w v) : sizeOf w < sizeOf v := by
  cases h with
  | item h =>
      have hlt := List.sizeOf_lt_of_mem h
      rw [list.sizeOf_spec]
      omega
  | entry h =>
      have hlt := List.sizeOf_lt_of_mem h
      rw [Prod.mk.sizeOf_spec] at hlt
      rw [map.sizeOf_spec]
      omega

/-- What a value has if all its parts have it, every value has. -/
theorem parts_induction {P : Value → Prop} (step : ∀ v, (∀ w, IsPart w v → P w) → P v)
    (v : Value) : P v :=
  step v fun w _ => parts_induction step w
termination_by sizeOf v
decreasing_by exact IsPart.sizeOf_lt ‹_›

/-- In every map, in the value or further in, each key occurs once. -/
inductive HasDistinctKeys : Value → Prop where
  | intro {v : Value} (keys : ∀ entries, v = .map entries → (Entries.names entries).Nodup)
      (parts : ∀ w, IsPart w v → HasDistinctKeys w) : HasDistinctKeys v

theorem HasDistinctKeys.list {items : List Value} (h : ∀ v ∈ items, v.HasDistinctKeys) :
    (list items).HasDistinctKeys := by
  refine .intro nofun fun w hw => ?_
  cases hw with
  | item hw => exact h w hw

theorem HasDistinctKeys.map {entries : Entries Value} (hkeys : entries.names.Nodup)
    (h : ∀ name v, (name, v) ∈ entries → v.HasDistinctKeys) : (map entries).HasDistinctKeys := by
  refine .intro (fun entries' heq => ?_) fun w hw => ?_
  · cases heq
    exact hkeys
  · cases hw with
    | entry hw => exact h _ w hw

/-- Two values are of one kind and denote one thing, where `R` holds between their parts. -/
inductive EqualBy (R : Value → Value → Prop) : Value → Value → Prop where
  | null : EqualBy R .null .null
  | bool (b : Bool) : EqualBy R (.bool b) (.bool b)
  | int32 (n : Int32) : EqualBy R (.int32 n) (.int32 n)
  | int64 (n : Int64) : EqualBy R (.int64 n) (.int64 n)
  | float64 {x y : Binary64} (h : x.equals y = true) : EqualBy R (.float64 x) (.float64 y)
  | decimal {x y : Decimal} (h : x.equals y = true) : EqualBy R (.decimal x) (.decimal y)
  | string (s : String) : EqualBy R (.string s) (.string s)
  | bytes (bs : List UInt8) : EqualBy R (.bytes bs) (.bytes bs)
  | date (d : Calendar.Date) : EqualBy R (.date d) (.date d)
  | dateTime (t : Calendar.DateTime) : EqualBy R (.dateTime t) (.dateTime t)
  | time (t : Calendar.Time) : EqualBy R (.time t) (.time t)
  | list {as bs : List Value} (h : List.Forall₂ R as bs) : EqualBy R (.list as) (.list bs)
  | map {as bs : Entries Value} (hlength : as.length = bs.length)
      (h : ∀ name a, (name, a) ∈ as → ∃ b, bs.get? name = some b ∧ R a b) :
      EqualBy R (.map as) (.map bs)
  | object {a b : Object Value} (h : a.identity = b.identity) : EqualBy R (.object a) (.object b)

theorem equalItems_iff {as bs : List Value} :
    equalItems as bs = true ↔ List.Forall₂ (fun a b => a.equals b = true) as bs := by
  induction as generalizing bs with
  | nil => cases bs <;> simp [equalItems]
  | cons a as ih => cases bs <;> simp [equalItems, ih]

/-- Equality compares the kinds of two values, what they denote, and their parts. -/
theorem equals_iff_equalBy {a b : Value} :
    a.equals b = true ↔ EqualBy (fun a b => a.equals b = true) a b := by
  constructor
  · intro h
    rw [equals.eq_def] at h
    split at h
    next => exact .null
    next => exact eq_of_beq h ▸ .bool _
    next => exact eq_of_beq h ▸ .int32 _
    next => exact eq_of_beq h ▸ .int64 _
    next => exact .float64 h
    next => exact .decimal h
    next => exact eq_of_beq h ▸ .string _
    next => exact eq_of_beq h ▸ .bytes _
    next => exact eq_of_beq h ▸ .date _
    next => exact eq_of_beq h ▸ .dateTime _
    next => exact eq_of_beq h ▸ .time _
    next => exact .list (equalItems_iff.1 h)
    next =>
      rw [Bool.and_eq_true, beq_iff_eq, containedIn_iff] at h
      exact .map h.1 h.2
    next => exact .object (eq_of_beq h)
    next => cases h
  · intro h
    cases h with
    | list h => exact equalItems_iff.2 h
    | map hlength h =>
        rw [equals, Bool.and_eq_true, beq_iff_eq, containedIn_iff]
        exact ⟨hlength, h⟩
    | _ => simp [equals, *]

/-- Of two maps of one size the other way round: what is found in the one under each key of the
other is there under all of its own. -/
theorem exists_get?_of_length_eq {R : Value → Value → Prop} {as bs : Entries Value}
    (has : as.names.Nodup) (hlength : as.length = bs.length)
    (h : ∀ name a, (name, a) ∈ as → ∃ b, bs.get? name = some b ∧ R a b) {name : String}
    {b : Value} (hb : (name, b) ∈ bs) : ∃ a, as.get? name = some a ∧ R a b := by
  have hsub : as.names ⊆ bs.names := by
    intro key hkey
    obtain ⟨⟨key, a⟩, hmem, rfl⟩ := List.mem_map.1 hkey
    obtain ⟨b', hb', -⟩ := h key a hmem
    exact List.mem_map.2 ⟨(key, b'), Entries.mem_of_get?_eq_some hb', rfl⟩
  have hperm : as.names.Perm bs.names := by
    refine (has.subperm hsub).perm_of_length_le ?_
    simp [Entries.names, hlength]
  have hname : name ∈ as.names := hperm.mem_iff.2 (List.mem_map.2 ⟨(name, b), hb, rfl⟩)
  obtain ⟨a, ha⟩ := Option.isSome_iff_exists.1 ((Entries.isSome_get?_iff name as).2 hname)
  obtain ⟨b', hb', hab⟩ := h name a (Entries.mem_of_get?_eq_some ha)
  have hfound : bs.get? name = some b := (Entries.get?_eq_some_iff (hperm.nodup_iff.1 has)).2 hb
  obtain rfl : b' = b := Option.some.inj (hb'.symm.trans hfound)
  exact ⟨a, ha, hab⟩

/-- Equality is symmetric where each key occurs once. -/
theorem equals_symm {a b : Value} (ha : a.HasDistinctKeys) (h : a.equals b = true) :
    b.equals a = true := by
  induction a using parts_induction generalizing b with
  | step a ih =>
      obtain ⟨keys, parts⟩ := ha
      have hpart : ∀ w, IsPart w a → ∀ u, w.equals u = true → u.equals w = true :=
        fun w hw u => ih w hw (parts w hw)
      rw [equals_iff_equalBy] at h ⊢
      cases h with
      | null => exact .null
      | bool => exact .bool _
      | int32 => exact .int32 _
      | int64 => exact .int64 _
      | float64 h => exact .float64 ((Binary64.equals_comm _ _).trans h)
      | decimal h => exact .decimal ((Decimal.equals_comm _ _).trans h)
      | string => exact .string _
      | bytes => exact .bytes _
      | date => exact .date _
      | dateTime => exact .dateTime _
      | time => exact .time _
      | list h =>
          have hitems := (List.forall₂_and_left _ _).2 ⟨fun w hw => IsPart.item hw, h⟩
          exact .list (hitems.imp fun w u h => hpart w h.1 u h.2).flip
      | map hlength h =>
          refine .map hlength.symm fun name b hb => ?_
          obtain ⟨a, ha, hab⟩ := exists_get?_of_length_eq (keys _ rfl) hlength h hb
          exact ⟨a, ha, hpart a (.entry (Entries.mem_of_get?_eq_some ha)) b hab⟩
      | object h => exact .object h.symm

/-- Lists that correspond to one list item by item correspond to each other. -/
theorem forall₂_trans {P Q R : Value → Value → Prop} {as bs cs : List Value}
    (hab : List.Forall₂ P as bs) (hbc : List.Forall₂ Q bs cs)
    (h : ∀ a b c, P a b → Q b c → R a c) : List.Forall₂ R as cs := by
  induction hab generalizing cs with
  | nil =>
      cases hbc
      exact .nil
  | cons ha _ ih =>
      cases hbc with
      | cons hb hbc => exact .cons (h _ _ _ ha hb) (ih hbc)

/-- Equality is transitive. -/
theorem equals_trans {a b c : Value} (hab : a.equals b = true) (hbc : b.equals c = true) :
    a.equals c = true := by
  induction a using parts_induction generalizing b c with
  | step a ih =>
      rw [equals_iff_equalBy] at hab hbc ⊢
      cases hab with
      | float64 hab =>
          cases hbc with
          | float64 hbc => exact .float64 (Binary64.equals_trans hab hbc)
      | decimal hab =>
          cases hbc with
          | decimal hbc => exact .decimal (Decimal.equals_trans hab hbc)
      | list hab =>
          cases hbc with
          | list hbc =>
              have hitems := (List.forall₂_and_left _ _).2 ⟨fun w hw => IsPart.item hw, hab⟩
              exact .list (forall₂_trans hitems hbc fun w _ _ h => ih w h.1 h.2)
      | map hlength hab =>
          cases hbc with
          | map hlength' hbc =>
              refine .map (hlength.trans hlength') fun name a ha => ?_
              obtain ⟨b, hb, hab⟩ := hab name a ha
              obtain ⟨c, hc, hbc⟩ := hbc name b (Entries.mem_of_get?_eq_some hb)
              exact ⟨c, hc, ih a (.entry ha) hab hbc⟩
      | object hab =>
          cases hbc with
          | object hbc => exact .object (hab.trans hbc)
      | _ => exact hbc

/-- Values are equal to values of their kind only. -/
theorem kind_eq_of_equals {a b : Value} (h : a.equals b = true) :
    a.isNull = b.isNull ∧ a.isNumber = b.isNumber ∧ a.isDate = b.isDate := by
  rw [equals_iff_equalBy] at h
  cases h <;> exact ⟨rfl, rfl, rfl⟩

end Value

end SqlTemplate
