import Mathlib
import SqlTemplate.Proofs.ValueEquality

/-!
# Maps in another order

A map has its entries in the order in which they were put in, and equality does not see the order.
One step puts the entries of one map in another order, and that map may stand anywhere in a value
(`Value.Reorders`). Such a step gives a value that equality does not tell from the first one
(`Value.Reorders.alike`), so any number of steps does.

A NaN is equal to nothing. A value is equal to itself unless a NaN occurs in it
(`Value.equals_self_iff`); what is in an object does not count, for an object is compared by its
identity. Together with symmetry and transitivity this makes equality a partial equivalence
(`Value.equals_partialEquivalence`).
-/

namespace SqlTemplate

theorem Entries.get?_eq_of_perm {α : Type} {es es' : Entries α} (hnames : es.names.Nodup)
    (h : es.Perm es') (name : String) : es.get? name = es'.get? name := by
  have hnames' : es'.names.Nodup := (h.map Prod.fst).nodup_iff.1 hnames
  refine Option.ext fun a => ?_
  rw [get?_eq_some_iff hnames, get?_eq_some_iff hnames', h.mem_iff]

namespace Value

open Number (Binary64 Decimal)

/-- The entries of one map are put in another order, in the value or further in. -/
inductive Reorders : Value → Value → Prop where
  | here {as bs : Entries Value} (h : as.Perm bs) : Reorders (.map as) (.map bs)
  | item (before after : List Value) {v w : Value} (h : Reorders v w) :
      Reorders (.list (before ++ v :: after)) (.list (before ++ w :: after))
  | entry (before after : Entries Value) (name : String) {v w : Value} (h : Reorders v w) :
      Reorders (.map (before ++ (name, v) :: after)) (.map (before ++ (name, w) :: after))

/-- Equality does not tell the values apart. -/
def Alike (v w : Value) : Prop :=
  ∀ u, v.equals u = w.equals u ∧ u.equals v = u.equals w

namespace Alike

variable {v w : Value}

theorem refl (v : Value) : Alike v v :=
  fun _ => ⟨rfl, rfl⟩

theorem trans {u : Value} (h : Alike u v) (h' : Alike v w) : Alike u w :=
  fun x => ⟨(h x).1.trans (h' x).1, (h x).2.trans (h' x).2⟩

theorem equalItems_left (h : Alike v w) (before after us : List Value) :
    equalItems (before ++ v :: after) us = equalItems (before ++ w :: after) us := by
  induction before generalizing us with
  | nil => cases us <;> simp [equalItems, (h _).1]
  | cons x before ih => cases us <;> simp [equalItems, ih]

theorem equalItems_right (h : Alike v w) (before after us : List Value) :
    equalItems us (before ++ v :: after) = equalItems us (before ++ w :: after) := by
  induction before generalizing us with
  | nil => cases us <;> simp [equalItems, (h _).2]
  | cons x before ih => cases us <;> simp [equalItems, ih]

/-- Lists with a part exchanged are alike. -/
theorem list (h : Alike v w) (before after : List Value) :
    Alike (.list (before ++ v :: after)) (.list (before ++ w :: after)) := by
  intro u
  cases u with
  | list us => exact ⟨h.equalItems_left before after us, h.equalItems_right before after us⟩
  | _ => exact ⟨rfl, rfl⟩

theorem containedIn_left (h : Alike v w) (before after us : Entries Value) (name : String) :
    containedIn (before ++ (name, v) :: after) us =
      containedIn (before ++ (name, w) :: after) us := by
  induction before with
  | nil => simp only [List.nil_append, containedIn, (h _).1]
  | cons e before ih => rw [List.cons_append, List.cons_append, containedIn, containedIn, ih]

theorem containedIn_right (h : Alike v w) (before after us : Entries Value) (name : String) :
    containedIn us (before ++ (name, v) :: after) =
      containedIn us (before ++ (name, w) :: after) := by
  induction us with
  | nil => rfl
  | cons e us ih =>
      obtain ⟨key, u⟩ := e
      rw [containedIn, containedIn, ih, Entries.get?_append, Entries.get?_append,
        Entries.get?_cons, Entries.get?_cons]
      cases before.get? key with
      | some _ => rfl
      | none =>
          by_cases hname : name = key
          · simp [hname, (h u).2]
          · simp [hname]

/-- Maps with a part exchanged are alike. -/
theorem map (h : Alike v w) (before after : Entries Value) (name : String) :
    Alike (.map (before ++ (name, v) :: after)) (.map (before ++ (name, w) :: after)) := by
  intro u
  cases u with
  | map us =>
      simp only [equals, List.length_append, List.length_cons, h.containedIn_left,
        h.containedIn_right, and_self]
  | _ => exact ⟨rfl, rfl⟩

/-- Maps with the same entries are alike, if each key occurs once. -/
theorem of_perm {as bs : Entries Value} (hkeys : as.names.Nodup) (h : as.Perm bs) :
    Alike (.map as) (.map bs) := by
  intro u
  cases u with
  | map us =>
      have hleft : containedIn as us = containedIn bs us := by
        rw [Bool.eq_iff_iff, containedIn_iff, containedIn_iff]
        simp only [h.mem_iff]
      have hright : containedIn us as = containedIn us bs := by
        rw [Bool.eq_iff_iff, containedIn_iff, containedIn_iff]
        simp only [Entries.get?_eq_of_perm hkeys h]
      simp only [equals, hleft, hright, h.length_eq, and_self]
  | _ => exact ⟨rfl, rfl⟩

end Alike

theorem HasDistinctKeys.part {v w : Value} (h : v.HasDistinctKeys) (hw : IsPart w v) :
    w.HasDistinctKeys := by
  obtain ⟨-, parts⟩ := h
  exact parts w hw

/-- What all elements of a list have, they have after one is exchanged for another that has it. -/
theorem forall_mem_of_exchange {α : Type} {P : α → Prop} {before after : List α} {a b : α}
    (h : ∀ x ∈ before ++ a :: after, P x) (hb : P b) : ∀ x ∈ before ++ b :: after, P x := by
  rw [List.forall_mem_append, List.forall_mem_cons] at h ⊢
  obtain ⟨hbefore, -, hafter⟩ := h
  exact ⟨hbefore, hb, hafter⟩

namespace Reorders

variable {v w : Value}

/-- In another order each key occurs once still. -/
theorem hasDistinctKeys (h : Reorders v w) (hv : v.HasDistinctKeys) : w.HasDistinctKeys := by
  induction h with
  | here h =>
      obtain ⟨keys, parts⟩ := hv
      exact .map ((h.map Prod.fst).nodup_iff.1 (keys _ rfl))
        fun name u hu => parts u (.entry (h.mem_iff.2 hu))
  | item before after _ ih =>
      refine .list (forall_mem_of_exchange (fun u hu => hv.part (.item hu)) ?_)
      exact ih (hv.part (.item List.mem_append_cons_self))
  | @entry before after name v w _ ih =>
      obtain ⟨keys, parts⟩ := hv
      have hentries : ∀ e ∈ before ++ (name, w) :: after, e.2.HasDistinctKeys :=
        forall_mem_of_exchange (fun e he => parts e.2 (.entry he))
          (ih (parts v (.entry List.mem_append_cons_self)))
      refine .map ?_ fun key u hu => hentries (key, u) hu
      simpa [Entries.names] using keys _ rfl

/-- Equality does not see the order of a map, wherever the map stands. -/
theorem alike (h : Reorders v w) (hv : v.HasDistinctKeys) : Alike v w := by
  induction h with
  | here h =>
      obtain ⟨keys, -⟩ := hv
      exact .of_perm (keys _ rfl) h
  | item before after _ ih =>
      exact (ih (hv.part (.item List.mem_append_cons_self))).list before after
  | entry before after name _ ih =>
      exact (ih (hv.part (.entry List.mem_append_cons_self))).map before after name

end Reorders

/-- Equality does not see the order of maps, however many are in another order. -/
theorem alike_of_reordered {v w : Value} (h : Relation.ReflTransGen Reorders v w)
    (hv : v.HasDistinctKeys) : Alike v w := by
  induction h using Relation.ReflTransGen.head_induction_on with
  | refl => exact .refl w
  | head hstep _ ih => exact (hstep.alike hv).trans (ih (hstep.hasDistinctKeys hv))

/-- A NaN occurs in the value. It does not count in an object. -/
inductive HasNaN : Value → Prop where
  | nan {x : Binary64} (h : x.isNaN = true) : HasNaN (.float64 x)
  | part {v w : Value} (hw : IsPart w v) (h : HasNaN w) : HasNaN v

/-- A value is equal to itself unless it has a NaN in it. -/
theorem equals_self_iff {v : Value} (hv : v.HasDistinctKeys) :
    v.equals v = true ↔ ¬ v.HasNaN := by
  induction v using parts_induction with
  | step v ih =>
      obtain ⟨keys, parts⟩ := hv
      have hpart : ∀ w, IsPart w v → (w.equals w = true ↔ ¬ w.HasNaN) :=
        fun w hw => ih w hw (parts w hw)
      rw [equals_iff_equalBy]
      constructor
      · intro hequal hnan
        cases hnan with
        | nan hx =>
            cases hequal with
            | float64 h => simp [(Binary64.equals_self_iff _).1 h] at hx
        | part hw hnan =>
            refine (hpart _ hw).1 ?_ hnan
            cases hw with
            | item hw =>
                cases hequal with
                | list h => exact List.forall₂_same.1 h _ hw
            | entry hw =>
                cases hequal with
                | map _ h =>
                    obtain ⟨u, hu, hequal⟩ := h _ _ hw
                    rw [(Entries.get?_eq_some_iff (keys _ rfl)).2 hw] at hu
                    cases hu
                    exact hequal
      · intro hnan
        have hequal : ∀ w, IsPart w v → w.equals w = true :=
          fun w hw => (hpart w hw).2 fun h => hnan (.part hw h)
        cases v with
        | float64 x =>
            refine .float64 ((Binary64.equals_self_iff x).2 ?_)
            exact Bool.eq_false_iff.2 fun hx => hnan (.nan hx)
        | decimal d => exact .decimal (Decimal.equals_self d)
        | list items => exact .list (List.forall₂_same.2 fun w hw => hequal w (.item hw))
        | map entries =>
            refine .map rfl fun name w hw => ⟨w, ?_, hequal w (.entry hw)⟩
            exact (Entries.get?_eq_some_iff (keys _ rfl)).2 hw
        | object o => exact .object rfl
        | null => exact .null
        | bool b => exact .bool b
        | int32 n => exact .int32 n
        | int64 n => exact .int64 n
        | string s => exact .string s
        | bytes bs => exact .bytes bs
        | date d => exact .date d
        | dateTime t => exact .dateTime t
        | time t => exact .time t

/-- Equality is symmetric and transitive, it is reflexive but for values with a NaN in them, and it
does not see the order of maps, in the values or further in. -/
theorem equals_partialEquivalence {a b : Value} (c : Value) (ha : a.HasDistinctKeys)
    (hb : b.HasDistinctKeys) :
    (a.equals b = true → b.equals a = true) ∧
    (a.equals b = true → b.equals c = true → a.equals c = true) ∧
    (a.equals a = true ↔ ¬ a.HasNaN) ∧
    (∀ a' b', Relation.ReflTransGen Reorders a a' → Relation.ReflTransGen Reorders b b' →
      a'.equals b' = a.equals b) := by
  refine ⟨equals_symm ha, equals_trans, equals_self_iff ha, fun a' b' haa' hbb' => ?_⟩
  calc a'.equals b'
      = a.equals b' := ((alike_of_reordered haa' ha) b').1.symm
    _ = a.equals b := ((alike_of_reordered hbb' hb) a).2.symm

/-- Two maps are in another order here, and one of them stands in a list in the other one. -/
theorem equals_partialEquivalence_nested :
    let inner : Value := .map [("p", .int64 1), ("q", .string "s")]
    let inner' : Value := .map [("q", .string "s"), ("p", .int64 1)]
    let a : Value := .map [("k", .list [inner]), ("l", .null)]
    let b : Value := .map [("l", .null), ("k", .list [inner'])]
    a.HasDistinctKeys ∧ b.HasDistinctKeys ∧ Relation.ReflTransGen Reorders a b ∧
      a.equals b = true ∧ b.equals a = true ∧ a.equals a = true ∧ ¬ a.HasNaN ∧
      b.equals a = a.equals b := by
  intro inner inner' a b
  have hscalar : ∀ v : Value, (∀ w, ¬ IsPart w v) → (∀ es, v ≠ .map es) → v.HasDistinctKeys :=
    fun v hparts hmap => .intro (fun es h => absurd h (hmap es)) fun w hw => absurd hw (hparts w)
  have hinner : inner.HasDistinctKeys := by
    refine .map (by decide) fun name v h => ?_
    simp only [List.mem_cons, Prod.mk.injEq, List.not_mem_nil, or_false] at h
    rcases h with ⟨-, rfl⟩ | ⟨-, rfl⟩ <;> exact hscalar _ nofun nofun
  have ha : a.HasDistinctKeys := by
    refine .map (by decide) fun name v h => ?_
    simp only [List.mem_cons, Prod.mk.injEq, List.not_mem_nil, or_false] at h
    rcases h with ⟨-, rfl⟩ | ⟨-, rfl⟩
    · exact .list (by simpa using hinner)
    · exact hscalar _ nofun nofun
  have hfurther : Reorders a (.map [("k", .list [inner']), ("l", .null)]) :=
    .entry [] [("l", .null)] "k" (.item [] [] (.here (List.Perm.swap _ _ _)))
  have hhere : Reorders (.map [("k", .list [inner']), ("l", .null)]) b :=
    .here (List.Perm.swap _ _ _)
  have hb : b.HasDistinctKeys := hhere.hasDistinctKeys (hfurther.hasDistinctKeys ha)
  have hab : Relation.ReflTransGen Reorders a b := .tail (.single hfurther) hhere
  have hba : Relation.ReflTransGen Reorders b a :=
    .tail (.single (.here (List.Perm.swap _ _ _)))
      (.entry [] [("l", .null)] "k" (.item [] [] (.here (List.Perm.swap _ _ _))))
  have hequal : a.equals b = true := by decide
  obtain ⟨hsymm, htrans, hself, horder⟩ := equals_partialEquivalence a ha hb
  have haa : a.equals a = true := htrans hequal (hsymm hequal)
  exact ⟨ha, hb, hab, hequal, hsymm hequal, haa, hself.1 haa, horder b a hab hba⟩

end Value

end SqlTemplate
