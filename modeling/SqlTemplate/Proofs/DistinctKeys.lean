import Mathlib
import SqlTemplate.Proofs.ArgumentDocuments
import SqlTemplate.Proofs.ValueEquality

/-!
# The keys of what is read

In every object that is read from a text the names of the members ascend. The machine that puts the
tokens together keeps this of all it holds (`Json.State.isSorted_of_step?`), because it puts each
member where its name belongs. So the arguments of a document, and all that is in them, have each
key once (`Arguments.hasDistinctKeys_of_ofDocument`).
-/

namespace SqlTemplate

namespace Json

/-- In every object, in the document or further in, the names of the members ascend. -/
inductive IsSorted : Json → Prop where
  | null : IsSorted .null
  | bool (b : Bool) : IsSorted (.bool b)
  | int (n : Int) : IsSorted (.int n)
  | float (x : Number.Binary64) : IsSorted (.float x)
  | string (s : String) : IsSorted (.string s)
  | array {items : List Json} (h : ∀ j ∈ items, IsSorted j) : IsSorted (.array items)
  | object {members : Entries Json} (hnames : members.names.Pairwise (· < ·))
      (h : ∀ m ∈ members, IsSorted m.2) : IsSorted (.object members)

/-- The token is no scalar that has an object in it with its members out of order. -/
def Token.IsSorted (t : Token) : Prop :=
  ∀ j, t = .scalar j → j.IsSorted

/-- What has been read of an array or object is in order. -/
def Open.IsSorted : Open → Prop
  | .array items => (Json.array items).IsSorted
  | .object members | .member members _ => (Json.object members).IsSorted

/-- All that has been read is in order. -/
def State.IsSorted : State → Prop
  | .reading nested _ => ∀ o ∈ nested, o.IsSorted
  | .finished j => j.IsSorted

theorem IsSorted.cons {j : Json} {items : List Json} (hj : j.IsSorted)
    (h : (Json.array items).IsSorted) : (Json.array (j :: items)).IsSorted := by
  cases h with
  | array h => exact .array (List.forall_mem_cons.2 ⟨hj, h⟩)

theorem IsSorted.reverse {items : List Json} (h : (Json.array items).IsSorted) :
    (Json.array items.reverse).IsSorted := by
  cases h with
  | array h => exact .array fun j hj => h j (List.mem_reverse.1 hj)

theorem IsSorted.insertMember {name : String} {j : Json} {members : Entries Json}
    (hj : j.IsSorted) (h : (Json.object members).IsSorted) :
    (Json.object (Json.insertMember name j members)).IsSorted := by
  cases h with
  | object hnames h =>
      refine .object (pairwise_insertMember name j hnames) fun m hm => ?_
      rcases mem_insertMember hm with rfl | hm
      · exact hj
      · exact h m hm

theorem isSorted_of_number? {s rest : List Char} {j : Json} (h : number? s = some (j, rest)) :
    j.IsSorted := by
  simp only [number?, Option.bind_eq_bind, Option.bind_eq_some_iff] at h
  obtain ⟨_, -, _, -, _, -, h⟩ := h
  split at h
  next n _ =>
    cases h
    exact .int n
  next =>
    obtain ⟨x, -, h⟩ := Option.bind_eq_some_iff.1 h
    cases h
    exact .float _

/-- The words denote no objects. -/
theorem isSorted_of_mem_words {w : String} {j : Json} (h : (w, j) ∈ words) : j.IsSorted := by
  simp only [words, List.mem_cons, Prod.mk.injEq, List.not_mem_nil, or_false] at h
  rcases h with ⟨-, rfl⟩ | ⟨-, rfl⟩ | ⟨-, rfl⟩
  · exact .null
  · exact .bool true
  · exact .bool false

theorem Token.isSorted_of_ofStart? {s rest : List Char} {t : Token}
    (h : ofStart? s = some (t, rest)) : t.IsSorted := by
  rintro j rfl
  rw [ofStart?.eq_def] at h
  split at h
  case h_8 =>
    split at h
    next k r hword =>
      cases h
      obtain ⟨⟨w, k⟩, hmem, hfound⟩ := List.exists_of_findSome?_eq_some hword
      obtain ⟨r, -, hr⟩ := Option.map_eq_some_iff.1 hfound
      cases hr
      exact isSorted_of_mem_words hmem
    next =>
      obtain ⟨⟨k, r⟩, hnumber, hr⟩ := Option.map_eq_some_iff.1 h
      cases hr
      exact isSorted_of_number? hnumber
  case h_7 =>
    obtain ⟨_, -, hr⟩ := Option.map_eq_some_iff.1 h
    cases hr
  all_goals cases h

theorem Token.isSorted_of_ofTextWithin? {limit : Nat} {s : List Char} {ts : List Token}
    (h : ofTextWithin? limit s = some ts) : ∀ t ∈ ts, t.IsSorted := by
  induction limit generalizing s ts with
  | zero => cases h
  | succ limit ih =>
      rw [ofTextWithin?] at h
      split at h
      next =>
        cases h
        exact List.forall_mem_nil _
      next =>
        split at h
        next t rest ht =>
          obtain ⟨ts, hts, rfl⟩ := Option.map_eq_some_iff.1 h
          exact List.forall_mem_cons.2 ⟨isSorted_of_ofStart? ht, ih hts⟩
        next => cases h

namespace State

variable {nested : List Open} {state state' : State} {j : Json} {t : Token}

theorem isSorted_of_complete? (hnested : ∀ o ∈ nested, o.IsSorted) (hj : j.IsSorted)
    (h : complete? nested j = some state) : state.IsSorted := by
  rw [complete?.eq_def] at h
  split at h
  next =>
    cases h
    exact hj
  next =>
    cases h
    rw [List.forall_mem_cons] at hnested
    exact List.forall_mem_cons.2 ⟨hj.cons hnested.1, hnested.2⟩
  next =>
    cases h
    rw [List.forall_mem_cons] at hnested
    exact List.forall_mem_cons.2 ⟨hj.insertMember hnested.1, hnested.2⟩
  next => cases h

theorem isSorted_of_open? {expected next : Expected} {opened : Open}
    (hnested : ∀ o ∈ nested, o.IsSorted) (hopened : opened.IsSorted)
    (h : open? nested expected opened next = some state) : state.IsSorted := by
  rw [open?] at h
  split at h
  next =>
    cases h
    exact List.forall_mem_cons.2 ⟨hopened, hnested⟩
  next => cases h

/-- What is in order stays so with each token. -/
theorem isSorted_of_step? (hstate : state.IsSorted) (ht : t.IsSorted)
    (h : state.step? t = some state') : state'.IsSorted := by
  cases state with
  | finished => cases h
  | reading nested expected =>
      cases t with
      | openArray =>
          have hopened : (Open.array []).IsSorted := IsSorted.array (List.forall_mem_nil _)
          exact isSorted_of_open? hstate hopened h
      | openObject =>
          have hopened : (Open.object []).IsSorted :=
            IsSorted.object .nil (List.forall_mem_nil _)
          exact isSorted_of_open? hstate hopened h
      | closeArray =>
          rw [step?.eq_def] at h
          dsimp only at h
          split at h
          next items outer =>
            split at h
            next =>
              have hnested := List.forall_mem_cons.1 hstate
              exact isSorted_of_complete? hnested.2 (IsSorted.reverse hnested.1) h
            next => cases h
          next => cases h
      | closeObject =>
          rw [step?.eq_def] at h
          dsimp only at h
          split at h
          next members outer =>
            split at h
            next =>
              have hnested := List.forall_mem_cons.1 hstate
              exact isSorted_of_complete? hnested.2 hnested.1 h
            next => cases h
          next => cases h
      | comma =>
          rw [step?.eq_def] at h
          dsimp only at h
          split at h
          next =>
            cases h
            exact hstate
          next =>
            cases h
            exact hstate
          next => cases h
      | colon =>
          rw [step?] at h
          split at h
          next =>
            cases h
            exact hstate
          next => cases h
      | string s =>
          rw [step?.eq_def] at h
          dsimp only at h
          split at h
          next members outer =>
            cases h
            have hnested := List.forall_mem_cons.1 hstate
            exact List.forall_mem_cons.2 ⟨hnested.1, hnested.2⟩
          next members outer =>
            cases h
            have hnested := List.forall_mem_cons.1 hstate
            exact List.forall_mem_cons.2 ⟨hnested.1, hnested.2⟩
          next => exact isSorted_of_complete? hstate (.string s) h
          next => exact isSorted_of_complete? hstate (.string s) h
          next => cases h
      | scalar j =>
          rw [step?] at h
          split at h
          next => exact isSorted_of_complete? hstate (ht j rfl) h
          next => cases h

/-- A run keeps what is read in order. -/
theorem isSorted_of_foldlM {ts : List Token} (hstate : state.IsSorted)
    (hts : ∀ t ∈ ts, t.IsSorted) (h : ts.foldlM step? state = some state') :
    state'.IsSorted := by
  induction ts generalizing state with
  | nil =>
      cases h
      exact hstate
  | cons t ts ih =>
      rw [List.forall_mem_cons] at hts
      rw [List.foldlM_cons] at h
      obtain ⟨next, hnext, h⟩ := Option.bind_eq_some_iff.1 h
      exact ih (isSorted_of_step? hstate hts.1 hnext) hts.2 h

end State

/-- A document that is read from a text has the members of its objects in order. -/
theorem isSorted_of_ofText? {s : String} {j : Json} (h : ofText? s = some j) : j.IsSorted := by
  obtain ⟨ts, hts, h⟩ := Option.bind_eq_some_iff.1 h
  obtain ⟨state, hrun, h⟩ := Option.bind_eq_some_iff.1 h
  have hstart : State.start.IsSorted := List.forall_mem_nil _
  have hstate := State.isSorted_of_foldlM hstart (Token.isSorted_of_ofTextWithin? hts) hrun
  cases state with
  | reading => cases h
  | finished =>
      cases h
      exact hstate

end Json

namespace Value

/-- A value that is neither a list nor a map has no keys. -/
theorem hasDistinctKeys_of_scalar {v : Value} (hlist : ∀ items, v ≠ .list items)
    (hmap : ∀ entries, v ≠ .map entries) : v.HasDistinctKeys := by
  refine .intro (fun entries heq => absurd heq (hmap entries)) fun w hw => ?_
  cases hw with
  | item => exact absurd rfl (hlist _)
  | entry => exact absurd rfl (hmap _)

theorem mem_ofJsonItems {v : Value} {items : List Json} (h : v ∈ ofJsonItems items) :
    ∃ j ∈ items, ofJson j = v := by
  induction items with
  | nil => cases h
  | cons j items ih =>
      rcases List.mem_cons.1 h with rfl | h
      · exact ⟨j, List.mem_cons_self, rfl⟩
      · obtain ⟨j', hj', rfl⟩ := ih h
        exact ⟨j', List.mem_cons_of_mem j hj', rfl⟩

/-- A value that is read has each key once. -/
theorem hasDistinctKeys_ofJson {j : Json} (h : j.IsSorted) : (ofJson j).HasDistinctKeys := by
  induction h with
  | null | bool | string =>
      rw [ofJson]
      exact hasDistinctKeys_of_scalar (by simp) (by simp)
  | int n =>
      rw [ofJson, ofJsonInt]
      split
      next => exact hasDistinctKeys_of_scalar (by simp) (by simp)
      next => split <;> exact hasDistinctKeys_of_scalar (by simp) (by simp)
  | float x =>
      rw [ofJson, ofJsonFloat]
      dsimp only
      split <;> exact hasDistinctKeys_of_scalar (by simp) (by simp)
  | array _ ih =>
      refine .list fun v hv => ?_
      obtain ⟨j, hj, rfl⟩ := mem_ofJsonItems hv
      exact ih j hj
  | object hnames _ ih =>
      rw [ofJson, ofJsonMembers_eq_map]
      refine .map ?_ fun name v hv => ?_
      · rw [Entries.names_map ofJson]
        exact hnames.imp ne_of_lt
      · obtain ⟨⟨name, j⟩, hj, heq⟩ := List.mem_map.1 hv
        cases heq
        exact ih _ hj

end Value

namespace Arguments

/-- What is under each name has each key once, in maps of any depth. -/
def HasDistinctKeys (a : Arguments) : Prop :=
  ∀ name v, a.values.get? name = some v → v.HasDistinctKeys

theorem HasDistinctKeys.put {a : Arguments} (h : a.HasDistinctKeys) (name : String) {v : Value}
    (hv : v.HasDistinctKeys) : (a.put name v).HasDistinctKeys := by
  intro other w hw
  rw [Arguments.put] at hw
  by_cases hname : other = name
  · subst hname
    rw [Entries.get?_put_self] at hw
    cases hw
    exact hv
  · rw [Entries.get?_put_of_ne hname] at hw
    exact h other w hw

theorem HasDistinctKeys.of_putMember {a a' : Arguments} {m : String × Json}
    (ha : a.HasDistinctKeys) (hm : m.2.IsSorted) (h : a.putMember m = .ok a') :
    a'.HasDistinctKeys := by
  rw [putMember.eq_def] at h
  dsimp only at h
  split at h
  next =>
    split at h
    next =>
      -- Declared types change no value.
      rw [foldlM_declareMember] at h
      obtain ⟨types, -, rfl⟩ := Except.map_eq_ok_iff.1 h
      exact ha
    next => cases h
  next =>
    cases h
    exact ha.put m.1 (Value.hasDistinctKeys_ofJson hm)

theorem HasDistinctKeys.of_foldlM_putMember {a a' : Arguments} {members : List (String × Json)}
    (ha : a.HasDistinctKeys) (hmembers : ∀ m ∈ members, m.2.IsSorted)
    (h : members.foldlM putMember a = .ok a') : a'.HasDistinctKeys := by
  induction members generalizing a with
  | nil =>
      cases h
      exact ha
  | cons m members ih =>
      rw [List.forall_mem_cons] at hmembers
      rw [List.foldlM_cons] at h
      obtain ⟨next, hnext, h⟩ := Except.bind_eq_ok_iff.1 h
      exact ih (ha.of_putMember hmembers.1 hnext) hmembers.2 h

/-- The arguments of a document have each key once. -/
theorem hasDistinctKeys_of_ofDocument {s : String} {a : Arguments} (h : ofDocument s = .ok a) :
    a.HasDistinctKeys := by
  have hempty : HasDistinctKeys empty := nofun
  rw [ofDocument] at h
  split at h
  next => cases h
  next members hread =>
    cases Json.isSorted_of_ofText? hread with
    | object _ hmembers => exact hempty.of_foldlM_putMember hmembers h
  next => cases h

end Arguments

end SqlTemplate
