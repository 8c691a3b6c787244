import Mathlib
import SqlTemplate.Proofs.DistinctKeys
import SqlTemplate.Proofs.Reordering

/-!
# Documents that values keep

A document whose numbers are integers of 64 bits (`Json.HoldsIntegers`) is read as a value that is
written as the same document again (`Value.toJson_ofJson`). So on such documents, and on the values
that are built from the same parts, nothing is lost in either direction. Of a value only the order
of its maps is lost, and equality does not see that order (`Value.conversion_lossless`).
-/

namespace SqlTemplate

/-- Every number in the document is an integer that 64 bits with a sign hold. -/
inductive Json.HoldsIntegers : Json → Prop where
  | null : HoldsIntegers .null
  | bool (b : Bool) : HoldsIntegers (.bool b)
  | int {n : Int} (hlower : -Int.pow 2 63 ≤ n) (hupper : n < Int.pow 2 63) :
      HoldsIntegers (.int n)
  | string (s : String) : HoldsIntegers (.string s)
  | array {items : List Json} (h : ∀ j ∈ items, HoldsIntegers j) : HoldsIntegers (.array items)
  | object {members : Entries Json} (h : ∀ m ∈ members, HoldsIntegers m.2) :
      HoldsIntegers (.object members)

/-- Members that ascend are the object that is made of them. -/
theorem Json.ofMembers_of_pairwise {members : Entries Json}
    (h : members.names.Pairwise (· < ·)) : ofMembers members = .object members :=
  congrArg object (insertMembers_eq_append h)

namespace Value

theorem toJsonItems_eq_map (items : List Value) : toJsonItems items = items.map toJson := by
  induction items with
  | nil => rfl
  | cons v items ih => rw [toJsonItems, ih, List.map_cons]

theorem ofJsonItems_eq_map (items : List Json) : ofJsonItems items = items.map ofJson := by
  induction items with
  | nil => rfl
  | cons j items ih => rw [ofJsonItems, ih, List.map_cons]

/-- A document with integers as its numbers is written as it was read. -/
theorem toJson_ofJson {j : Json} (hsorted : j.IsSorted) (h : j.HoldsIntegers) :
    (ofJson j).toJson = j := by
  induction hsorted with
  | null | bool | string => rfl
  | int n =>
      cases h with
      | int hlower hupper =>
          rw [ofJson, ofJsonInt, if_pos ⟨hlower, hupper⟩, toJson,
            Int64.toInt_ofInt_of_le hlower hupper]
  | float => cases h
  | @array items _ ih =>
      cases h with
      | array h =>
          have hitems : items.map (toJson ∘ ofJson) = items :=
            (List.map_congr_left fun j hj => ih j hj (h j hj)).trans (List.map_id items)
          rw [ofJson, toJson, ofJsonItems_eq_map, toJsonItems_eq_map, List.map_map, hitems]
  | @object members hnames _ ih =>
      cases h with
      | object h =>
          have hmembers : toJsonEntries (ofJsonMembers members) = members := by
            rw [toJsonEntries_eq_map, ofJsonMembers_eq_map, List.map_map]
            refine (List.map_congr_left fun m hm => ?_).trans (List.map_id members)
            exact congrArg (Prod.mk m.1) (ih m hm (h m hm))
          rw [ofJson, toJson, hmembers, Json.ofMembers_of_pairwise hnames]

theorem areJson_iff {items : List Value} : AreJson items ↔ ∀ v ∈ items, v.IsJson := by
  induction items with
  | nil => simp [AreJson]
  | cons v items ih => rw [AreJson, ih, List.forall_mem_cons]

theorem entriesAreJson_iff {entries : Entries Value} :
    EntriesAreJson entries ↔ ∀ e ∈ entries, e.2.IsJson := by
  induction entries with
  | nil => simp [EntriesAreJson]
  | cons e entries ih => rw [EntriesAreJson, ih, List.forall_mem_cons]

/-- In a value that documents keep each key occurs once. -/
theorem IsJson.hasDistinctKeys {v : Value} (h : v.IsJson) : v.HasDistinctKeys := by
  induction v using parts_induction with
  | step v ih =>
      refine .intro (fun entries heq => ?_) fun w hw => ih w hw ?_
      · subst heq
        exact h.1
      · cases hw with
        | item hw => exact areJson_iff.1 h w hw
        | entry hw => exact entriesAreJson_iff.1 h.2 _ hw

/-- Documents with integers of 64 bits, and the values that are built from the same parts, keep what
they are in both directions: the document is the same again, and so is the value, whatever the order
of its maps. -/
theorem conversion_lossless :
    (∀ j : Json, j.IsSorted → j.HoldsIntegers → (ofJson j).toJson = j) ∧
    (∀ v w : Value, v.IsJson → Relation.ReflTransGen Reorders v w →
      (ofJson v.toJson).equals w = true) := by
  refine ⟨fun j hsorted h => toJson_ofJson hsorted h, fun v w hv hvw => ?_⟩
  rw [← ((alike_of_reordered hvw hv.hasDistinctKeys) _).2]
  exact equals_ofJson_toJson v hv

/-- The order of a map is lost on the way through a document, and nothing else is. -/
theorem conversion_lossless_nested :
    let j : Json := .object [("a", .array [.int (-9223372036854775808), .null]), ("b", .bool true)]
    let v : Value := .map [("b", .list [.int64 1]), ("a", .string "s")]
    let w : Value := .map [("a", .string "s"), ("b", .list [.int64 1])]
    j.IsSorted ∧ j.HoldsIntegers ∧ (ofJson j).toJson = j ∧ v.IsJson ∧
      Relation.ReflTransGen Reorders v w ∧ (ofJson v.toJson).equals w = true := by
  intro j v w
  have hsorted : j.IsSorted := by
    refine .object (by decide) ?_
    simp only [List.forall_mem_cons, List.not_mem_nil, IsEmpty.forall_iff, implies_true, and_true]
    refine ⟨.array ?_, .bool true⟩
    simpa using ⟨Json.IsSorted.int _, Json.IsSorted.null⟩
  have hintegers : j.HoldsIntegers := by
    refine .object ?_
    simp only [List.forall_mem_cons, List.not_mem_nil, IsEmpty.forall_iff, implies_true, and_true]
    refine ⟨.array ?_, .bool true⟩
    simpa using ⟨Json.HoldsIntegers.int (by decide) (by decide), Json.HoldsIntegers.null⟩
  have hv : v.IsJson := ⟨by decide, ⟨trivial, trivial⟩, trivial, trivial⟩
  have hvw : Relation.ReflTransGen Reorders v w := .single (.here (List.Perm.swap _ _ _))
  exact ⟨hsorted, hintegers, conversion_lossless.1 j hsorted hintegers, hv, hvw,
    conversion_lossless.2 v w hv hvw⟩

end Value

end SqlTemplate
