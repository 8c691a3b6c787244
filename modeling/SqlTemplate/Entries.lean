/-!
# Named entries in order

Entries are pairs of a name and something under that name, in the order in which the
names were first used. `get?` finds what is under a name, `put` replaces it in place or
adds it at the end. Both see only the first entry with a name; entries built by `put` and
`ofList` have no other.
-/

namespace SqlTemplate

/-- Pairs of a name and something under that name. -/
abbrev Entries (α : Type) := List (String × α)

namespace Entries

variable {α : Type}

def get? (name : String) : Entries α → Option α
  | [] => none
  | (other, a) :: es => if other = name then some a else get? name es

/-- Puts something under the name: in place of what is there, else at the end. -/
def put (name : String) (a : α) : Entries α → Entries α
  | [] => [(name, a)]
  | (other, b) :: es => if other = name then (other, a) :: es else (other, b) :: put name a es

def ofList (entries : List (String × α)) : Entries α :=
  entries.foldl (fun es (name, a) => es.put name a) []

def names (es : Entries α) : List String :=
  es.map Prod.fst

@[simp] theorem get?_nil (name : String) : get? name ([] : Entries α) = none := rfl

theorem get?_cons (name other : String) (a : α) (es : Entries α) :
    get? name ((other, a) :: es) = if other = name then some a else get? name es := rfl

theorem get?_append (name : String) (es es' : Entries α) :
    get? name (es ++ es') = (get? name es).or (get? name es') := by
  induction es with
  | nil => rfl
  | cons e es ih =>
    obtain ⟨other, a⟩ := e
    rw [List.cons_append, get?_cons, get?_cons, ih]
    split
    next => rfl
    next => rfl

@[simp] theorem get?_put_self (name : String) (a : α) (es : Entries α) :
    get? name (put name a es) = some a := by
  induction es with
  | nil => simp [put, get?]
  | cons e es ih =>
    obtain ⟨other, b⟩ := e
    by_cases h : other = name <;> simp [put, get?, h, ih]

theorem get?_put_of_ne {name other : String} (h : other ≠ name) (a : α) (es : Entries α) :
    get? other (put name a es) = get? other es := by
  induction es with
  | nil => simp [put, get?, Ne.symm h]
  | cons e es ih =>
    obtain ⟨key, b⟩ := e
    by_cases hk : key = name
    · simp [put, get?, hk, Ne.symm h]
    · simp [put, get?, hk, ih]

/-- A name is found exactly if it is one of the names. -/
theorem isSome_get?_iff (name : String) (es : Entries α) :
    (get? name es).isSome ↔ name ∈ names es := by
  induction es with
  | nil => simp [get?, names]
  | cons e es ih =>
    obtain ⟨other, b⟩ := e
    by_cases h : other = name
    · simp [get?, names, h]
    · have : name ≠ other := Ne.symm h
      simpa [get?, names, h, this] using ih

/-- Putting under a new name adds the name at the end, under a known one none. -/
theorem names_put (name : String) (a : α) (es : Entries α) :
    names (put name a es) = if name ∈ names es then names es else names es ++ [name] := by
  induction es with
  | nil => simp [put, names]
  | cons e es ih =>
    obtain ⟨other, b⟩ := e
    by_cases h : other = name
    · simp [put, names, h]
    · have hn : name ≠ other := Ne.symm h
      simp only [names] at ih
      by_cases hm : name ∈ List.map Prod.fst es <;> simp_all [put, names]

end Entries

end SqlTemplate
