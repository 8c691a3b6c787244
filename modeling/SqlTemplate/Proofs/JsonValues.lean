import Mathlib
import SqlTemplate.Value.Equality
import SqlTemplate.Value.Json

/-!
# Values that documents keep

A document has null, booleans, integers, strings, arrays and objects, and the members of an object
come in the order of their names. So a value that is built from nothing else
(`Value.IsJson`) is read back from its document as an equal value
(`Value.equals_ofJson_toJson`), and as the same value but for the order of the entries in maps.
What matters of entries is what is found under a name: that is the same in an object as in the
members it is made of (`Json.exists_ofMembers`), and it decides whether two maps are equal
(`Value.equals_map`).
-/

namespace SqlTemplate

namespace Entries

variable {α β : Type} {name : String} {a : α} {es : Entries α}

theorem get?_eq_none_iff : es.get? name = none ↔ name ∉ es.names := by
  rw [← isSome_get?_iff, Option.not_isSome_iff_eq_none]

theorem mem_of_get?_eq_some (h : es.get? name = some a) : (name, a) ∈ es := by
  induction es with
  | nil => cases h
  | cons e es ih =>
      obtain ⟨other, b⟩ := e
      rw [get?_cons] at h
      split at h
      next hname =>
        cases h
        rw [hname]
        exact List.mem_cons_self
      next => exact List.mem_cons_of_mem _ (ih h)

/-- Where each name occurs once, an entry is found under its name. -/
theorem get?_eq_some_iff (hnames : es.names.Nodup) : es.get? name = some a ↔ (name, a) ∈ es := by
  refine ⟨mem_of_get?_eq_some, fun h => ?_⟩
  induction es with
  | nil => cases h
  | cons e es ih =>
      obtain ⟨other, b⟩ := e
      rw [names, List.map_cons, List.nodup_cons] at hnames
      rw [get?_cons]
      rcases List.mem_cons.1 h with h | h
      · cases h
        exact if_pos rfl
      · have hne : other ≠ name := by
          rintro rfl
          exact hnames.1 (List.mem_map.2 ⟨_, h, rfl⟩)
        rw [if_neg hne]
        exact ih hnames.2 h

theorem names_map (f : α → β) (es : Entries α) :
    names (es.map fun (name, a) => (name, f a)) = es.names := by
  simp [names]

theorem get?_map (f : α → β) (es : Entries α) (name : String) :
    get? name (es.map fun (name, a) => (name, f a)) = (es.get? name).map f := by
  induction es with
  | nil => rfl
  | cons e es ih =>
      obtain ⟨other, a⟩ := e
      rw [List.map_cons, get?_cons, get?_cons, ih]
      split
      next => rfl
      next => rfl

/-- Where entries are put in one after another, under a name there is the one put in or what was
there. -/
theorem get?_foldl {put : String → α → Entries α → Entries α}
    (hself : ∀ name a es, get? name (put name a es) = some a)
    (hne : ∀ name other a es, other ≠ name → get? other (put name a es) = get? other es)
    {new : Entries α} (hnew : new.names.Nodup) (es : Entries α) (name : String) :
    get? name (new.foldl (fun es (name, a) => put name a es) es) =
      (new.get? name).or (es.get? name) := by
  induction new generalizing es with
  | nil => rfl
  | cons e new ih =>
      obtain ⟨key, a⟩ := e
      rw [names, List.map_cons, List.nodup_cons] at hnew
      refine (ih hnew.2 (put key a es)).trans ?_
      rw [get?_cons]
      split
      next heq =>
        subst heq
        have hnone : get? key new = none := get?_eq_none_iff.2 hnew.1
        rw [hnone, hself]
        rfl
      next hkey => rw [hne _ _ _ _ (Ne.symm hkey)]

/-- Entries with the same names are as many, if each name occurs once. -/
theorem length_eq_of_isSome_get? {es' : Entries β} (hnames : es.names.Nodup)
    (hnames' : es'.names.Nodup) (h : ∀ name, (es.get? name).isSome = (es'.get? name).isSome) :
    es.length = es'.length := by
  have hperm : es.names.Perm es'.names := by
    rw [List.perm_ext_iff_of_nodup hnames hnames']
    intro name
    rw [← isSome_get?_iff, ← isSome_get?_iff, h]
  simpa [names] using hperm.length_eq

end Entries

namespace Json

theorem mem_names_insertMember (name other : String) (j : Json) (ms : Entries Json) :
    other ∈ (insertMember name j ms).names ↔ other = name ∨ other ∈ ms.names := by
  rw [← Entries.isSome_get?_iff, ← Entries.isSome_get?_iff]
  by_cases h : other = name
  · simp [h]
  · simp [h, get?_insertMember_of_ne h]

/-- A member is put where its name belongs. -/
theorem pairwise_insertMember (name : String) (j : Json) {ms : Entries Json}
    (h : ms.names.Pairwise (· < ·)) : (insertMember name j ms).names.Pairwise (· < ·) := by
  induction ms with
  | nil => exact List.pairwise_singleton _ _
  | cons m ms ih =>
      obtain ⟨other, w⟩ := m
      obtain ⟨hother, hms⟩ := List.pairwise_cons.1 h
      rw [insertMember]
      split
      next hlt =>
        refine List.pairwise_cons.2 ⟨fun key hkey => ?_, h⟩
        rcases List.mem_cons.1 hkey with rfl | hkey
        · exact hlt
        · exact lt_trans hlt (hother key hkey)
      next hge =>
        split
        next heq =>
          subst heq
          exact h
        next hne =>
          refine List.pairwise_cons.2 ⟨fun key hkey => ?_, ih hms⟩
          have hkey : key ∈ (insertMember name j ms).names := hkey
          rcases (mem_names_insertMember name key j ms).1 hkey with rfl | hkey
          · exact lt_of_le_of_ne (not_lt.1 hge) (Ne.symm hne)
          · exact hother key hkey

/-- The members put into an object one after another. -/
def insertMembers (members ms : Entries Json) : Entries Json :=
  members.foldl (fun ms (name, value) => insertMember name value ms) ms

theorem pairwise_insertMembers (members : Entries Json) {ms : Entries Json}
    (h : ms.names.Pairwise (· < ·)) : (insertMembers members ms).names.Pairwise (· < ·) := by
  induction members generalizing ms with
  | nil => exact h
  | cons m members ih => exact ih (pairwise_insertMember m.1 m.2 h)

/-- Under a name there is the member put in, or what was there. -/
theorem get?_insertMembers {members : Entries Json} (h : members.names.Nodup)
    (ms : Entries Json) (name : String) :
    (insertMembers members ms).get? name = (members.get? name).or (ms.get? name) :=
  Entries.get?_foldl get?_insertMember_self
    (fun _ _ j ms hname => get?_insertMember_of_ne hname j ms) h ms name

/-- Under a name the object has what the members have, if each name occurs once. -/
theorem exists_ofMembers {members : Entries Json} (h : members.names.Nodup) :
    ∃ ms : Entries Json, ofMembers members = .object ms ∧ ms.names.Pairwise (· < ·) ∧
      ∀ name, ms.get? name = members.get? name := by
  refine ⟨insertMembers members [], rfl, pairwise_insertMembers members .nil, fun name => ?_⟩
  rw [get?_insertMembers h]
  exact Option.or_none

end Json

namespace Value

theorem containedIn_iff {as bs : Entries Value} :
    containedIn as bs = true ↔
      ∀ name a, (name, a) ∈ as → ∃ b, bs.get? name = some b ∧ a.equals b = true := by
  induction as with
  | nil => simp [containedIn]
  | cons e as ih =>
      obtain ⟨name, a⟩ := e
      rw [containedIn, Bool.and_eq_true, ih]
      constructor
      · rintro ⟨hfirst, hrest⟩ other b hmem
        rcases List.mem_cons.1 hmem with h | hmem
        · cases h
          split at hfirst
          next b hb => exact ⟨b, hb, hfirst⟩
          next => cases hfirst
        · exact hrest other b hmem
      · intro h
        refine ⟨?_, fun other b hmem => h other b (List.mem_cons_of_mem _ hmem)⟩
        obtain ⟨b, hb, hequals⟩ := h name a List.mem_cons_self
        rw [hb]
        exact hequals

/-- Two maps in which each key occurs once are equal if what is found under each key is. -/
theorem equals_map {as bs : Entries Value} {f : Value → Value} (has : as.names.Nodup)
    (hbs : bs.names.Nodup) (hget : ∀ name, as.get? name = (bs.get? name).map f)
    (hf : ∀ name b, (name, b) ∈ bs → (f b).equals b = true) :
    (Value.map as).equals (.map bs) = true := by
  have hlength : as.length = bs.length := by
    refine Entries.length_eq_of_isSome_get? has hbs fun name => ?_
    rw [hget, Option.isSome_map]
  rw [equals, Bool.and_eq_true, beq_iff_eq, containedIn_iff]
  refine ⟨hlength, fun name a hmem => ?_⟩
  have ha := (Entries.get?_eq_some_iff has).2 hmem
  rw [hget] at ha
  obtain ⟨b, hb, rfl⟩ := Option.map_eq_some_iff.1 ha
  exact ⟨b, hb, hf name b (Entries.mem_of_get?_eq_some hb)⟩

mutual

/-- Whether the value is built from null, booleans, integers of 64 bits, strings, lists, and maps
in which each key occurs once. -/
def IsJson : Value → Prop
  | .null | .bool _ | .int64 _ | .string _ => True
  | .list items => AreJson items
  | .map entries => (Entries.names entries).Nodup ∧ EntriesAreJson entries
  | _ => False

def AreJson : List Value → Prop
  | [] => True
  | v :: vs => IsJson v ∧ AreJson vs

def EntriesAreJson : List (String × Value) → Prop
  | [] => True
  | (_, v) :: es => IsJson v ∧ EntriesAreJson es

end

theorem toJsonEntries_eq_map (entries : Entries Value) :
    toJsonEntries entries = entries.map fun (name, v) => (name, v.toJson) := by
  induction entries with
  | nil => rfl
  | cons e entries ih => rw [toJsonEntries, ih]; rfl

theorem ofJsonMembers_eq_map (members : Entries Json) :
    ofJsonMembers members = members.map fun (name, j) => (name, ofJson j) := by
  induction members with
  | nil => rfl
  | cons m members ih => rw [ofJsonMembers, ih]; rfl

theorem ofJsonInt_toInt (n : Int64) : ofJsonInt n.toInt = .int64 n := by
  have hlower := n.le_toInt
  have hupper := n.toInt_lt
  rw [ofJsonInt, if_pos ⟨hlower, hupper⟩, Int64.ofInt_toInt]

mutual

/-- A value that documents keep is read back as an equal value. -/
theorem equals_ofJson_toJson (v : Value) (h : v.IsJson) :
    (ofJson v.toJson).equals v = true := by
  match v with
  | .null => rfl
  | .bool b => simp [toJson, ofJson, equals]
  | .int64 n => simp [toJson, ofJson, ofJsonInt_toInt, equals]
  | .string s => simp [toJson, ofJson, equals]
  | .list items => exact equalItems_ofJsonItems_toJsonItems items h
  | .map entries =>
      obtain ⟨hnames, hentries⟩ := h
      have hdocuments : (toJsonEntries entries).names.Nodup := by
        rwa [toJsonEntries_eq_map, Entries.names_map]
      obtain ⟨ms, hms, hsorted, hget⟩ := Json.exists_ofMembers hdocuments
      rw [toJson, hms, ofJson, ofJsonMembers_eq_map]
      refine equals_map (f := fun v => ofJson v.toJson) ?_ hnames (fun name => ?_)
        fun name v hmem => equals_of_mem_entries entries hentries hmem
      · rw [Entries.names_map]
        exact hsorted.imp fun h => ne_of_lt h
      · rw [Entries.get?_map, hget, toJsonEntries_eq_map, Entries.get?_map, Option.map_map]
        rfl
  | .int32 _ | .float64 _ | .decimal _ | .bytes _ | .date _ | .dateTime _ | .time _ | .object _ =>
      exact h.elim

theorem equalItems_ofJsonItems_toJsonItems (items : List Value) (h : AreJson items) :
    equalItems (ofJsonItems (toJsonItems items)) items = true := by
  match items with
  | [] => rfl
  | v :: vs =>
      rw [toJsonItems, ofJsonItems, equalItems, equals_ofJson_toJson v h.1,
        equalItems_ofJsonItems_toJsonItems vs h.2]
      rfl

/-- The same of what is found in the entries of a map. -/
theorem equals_of_mem_entries (entries : List (String × Value)) (h : EntriesAreJson entries)
    {name : String} {v : Value} (hmem : (name, v) ∈ entries) :
    (ofJson v.toJson).equals v = true := by
  match entries with
  | [] => cases hmem
  | (key, w) :: es =>
      rcases List.mem_cons.1 hmem with heq | hmem
      · obtain ⟨-, hv⟩ := Prod.mk.inj heq
        rw [hv]
        exact equals_ofJson_toJson w h.1
      · exact equals_of_mem_entries es h.2 hmem

end

end Value

end SqlTemplate
