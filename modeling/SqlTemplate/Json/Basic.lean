import SqlTemplate.Entries
import SqlTemplate.Number.Binary64

/-!
# JSON documents

A number of a document is an integer or a binary number. The members of an object are
kept in ascending order of their names, each name once: `insertMember` puts a member at
its place and replaces the one that had its name, so of two members with one name the
later stays (`get?_insertMember_self`). Names are ordered by code points, which is also
the order of their UTF-8 bytes.
-/

namespace SqlTemplate

inductive Json where
  | null
  | bool (b : Bool)
  | int (n : Int)
  | float (x : Number.Binary64)
  | string (s : String)
  | array (items : List Json)
  | object (members : List (String × Json))
deriving Inhabited

namespace Json

/-- Puts a member at its place among members in ascending order, in place of the one with
its name. -/
def insertMember (name : String) (value : Json) : Entries Json → Entries Json
  | [] => [(name, value)]
  | (other, w) :: rest =>
    if name < other then (name, value) :: (other, w) :: rest
    else if name = other then (name, value) :: rest
    else (other, w) :: insertMember name value rest

/-- The object with the given members; of members with one name the last counts. -/
def ofMembers (members : Entries Json) : Json :=
  .object (members.foldl (fun ms (name, value) => insertMember name value ms) [])

/-- The member just inserted is the one found under its name. -/
@[simp] theorem get?_insertMember_self (name : String) (value : Json) (ms : Entries Json) :
    (insertMember name value ms).get? name = some value := by
  induction ms with
  | nil => simp [insertMember, Entries.get?]
  | cons m ms ih =>
    obtain ⟨other, w⟩ := m
    rw [insertMember]
    split
    · simp [Entries.get?]
    · split
      · simp [Entries.get?]
      · next h => simp [Entries.get?, ih, Ne.symm h]

/-- Other members are found as before. -/
theorem get?_insertMember_of_ne {name other : String} (h : other ≠ name) (value : Json)
    (ms : Entries Json) : (insertMember name value ms).get? other = ms.get? other := by
  induction ms with
  | nil => simp [insertMember, Entries.get?, Ne.symm h]
  | cons m ms ih =>
    obtain ⟨key, w⟩ := m
    rw [insertMember]
    split
    · simp [Entries.get?, Ne.symm h]
    · split
      · next hk => subst hk; simp [Entries.get?, Ne.symm h]
      · simp [Entries.get?, ih]

end Json

end SqlTemplate
