import Mathlib
import SqlTemplate.Evaluation.BoundSql

/-!
# Pieces of SQL

The SQL of an evaluation is put together from pieces: text that stands in a template,
text that a variable inserts, and placeholders. A list of pieces says of every character
of the SQL where it comes from, and `BoundSql.ofPieces` forgets that again.

The main fact is a count: if no inserted text holds a question mark, the question marks of
the SQL are one for each bound value and those of the literal texts (`marks_ofPieces`).
-/

namespace SqlTemplate

/-- A piece of SQL, by where it comes from. -/
inductive Piece where
  /-- Text of a template. -/
  | literal (s : String)
  /-- Text of a template that may be dropped where nothing stands before it. -/
  | connector (word : String)
  /-- Text that a variable gives: of its value, of the marks of a list, of an escape clause. -/
  | inserted (s : String)
  | placeholder (v : Value) (type : ValueType)

/-- How many question marks there are. -/
def marks (s : String) : Nat :=
  s.toList.count '?'

theorem marks_append (s t : String) : marks (s ++ t) = marks s + marks t := by
  simp [marks]

theorem marks_eq_zero_iff (s : String) : marks s = 0 ↔ '?' ∉ s.toList := by
  rw [marks, List.count_eq_zero]

namespace Piece

def sql : Piece → BoundSql
  | .literal s | .connector s | .inserted s => .ofSql s
  | .placeholder v type => .ofValue v type

/-- The text, if a template has it. -/
def literal? : Piece → Option String
  | .literal s | .connector s => some s
  | .inserted _ | .placeholder .. => none

/-- Whether the piece is no inserted text with a question mark in it. -/
def IsSafe : Piece → Prop
  | .inserted s => marks s = 0
  | _ => True

/-- Pieces as a list in SQL. -/
def listed (ps : List Piece) : List Piece :=
  .inserted "(" :: (ps.intersperse (.inserted ", ") ++ [.inserted ")"])

/-- The texts that templates have, in order. -/
def literals (ps : List Piece) : List String :=
  ps.filterMap literal?

/-- The question marks in the texts that templates have. -/
def literalMarks : List Piece → Nat
  | [] => 0
  | p :: ps => (p.literal?.map marks).getD 0 + literalMarks ps

theorem literalMarks_cons (p : Piece) (ps : List Piece) :
    literalMarks (p :: ps) = (p.literal?.map marks).getD 0 + literalMarks ps := rfl

theorem literalMarks_eq_zero_iff (ps : List Piece) :
    literalMarks ps = 0 ↔ ∀ s ∈ literals ps, '?' ∉ s.toList := by
  induction ps with
  | nil => simp [literalMarks, literals]
  | cons p ps ih =>
      rw [literalMarks_cons, Nat.add_eq_zero_iff, ih, literals]
      cases hp : p.literal? with
      | none => simp [literals, hp]
      | some s => simp [literals, hp, marks_eq_zero_iff]

end Piece

namespace BoundSql

/-- The parts one behind the other. -/
def join : List BoundSql → BoundSql
  | [] => .empty
  | b :: bs => b ++ join bs

theorem join_nil : join [] = .empty := rfl

theorem join_cons (b : BoundSql) (bs : List BoundSql) : join (b :: bs) = b ++ join bs := rfl

theorem join_append (as bs : List BoundSql) : join (as ++ bs) = join as ++ join bs := by
  induction as with
  | nil => rw [List.nil_append, join_nil, empty_append]
  | cons a as ih => rw [List.cons_append, join_cons, join_cons, ih, append_assoc]

theorem join_intersperse (sep : String) (bs : List BoundSql) :
    join (bs.intersperse (.ofSql sep)) =
      ⟨sep.intercalate (bs.map sql), bs.flatMap values, bs.flatMap types⟩ := by
  induction bs with
  | nil => rfl
  | cons a bs ih =>
      cases bs with
      | nil =>
          rw [List.intersperse_singleton, join_cons, join_nil, append_empty]
          simp
      | cons b bs =>
          rw [List.intersperse_cons_cons, join_cons, join_cons, ih]
          ext1 <;> simp [ofSql, String.append_assoc]

/-- Parts with separators between them, one in front and one behind. -/
theorem join_enclosed (sep : String) (first last : BoundSql) (parts : List BoundSql) :
    join (first :: (parts.intersperse (.ofSql sep) ++ [last])) =
      ⟨first.sql ++ sep.intercalate (parts.map sql) ++ last.sql,
        first.values ++ parts.flatMap values ++ last.values,
        first.types ++ parts.flatMap types ++ last.types⟩ := by
  rw [join_cons, join_append, join_intersperse, join_cons, join_nil, append_empty]
  ext1 <;> simp [String.append_assoc]

/-- The SQL that is put together from the pieces. -/
def ofPieces : List Piece → BoundSql
  | [] => .empty
  | p :: ps => p.sql ++ ofPieces ps

@[simp] theorem ofPieces_nil : ofPieces [] = .empty := rfl

theorem ofPieces_cons (p : Piece) (ps : List Piece) :
    ofPieces (p :: ps) = p.sql ++ ofPieces ps := rfl

theorem ofPieces_singleton (p : Piece) : ofPieces [p] = p.sql := by
  rw [ofPieces_cons, ofPieces_nil, append_empty]

theorem ofPieces_eq_join (ps : List Piece) : ofPieces ps = join (ps.map Piece.sql) := by
  induction ps with
  | nil => rfl
  | cons p ps ih => rw [ofPieces_cons, ih, List.map_cons, join_cons]

theorem ofPieces_append (ps qs : List Piece) :
    ofPieces (ps ++ qs) = ofPieces ps ++ ofPieces qs := by
  rw [ofPieces_eq_join, List.map_append, join_append, ← ofPieces_eq_join, ← ofPieces_eq_join]

theorem length_types_ofPieces (ps : List Piece) :
    (ofPieces ps).types.length = (ofPieces ps).values.length := by
  induction ps with
  | nil => rfl
  | cons p ps ih =>
      rw [ofPieces_cons, append_types, append_values, List.length_append,
        List.length_append, ih]
      cases p <;> rfl

theorem marks_sql_of_isSafe {p : Piece} (h : p.IsSafe) :
    marks p.sql.sql = p.sql.values.length + (p.literal?.map marks).getD 0 := by
  cases p with
  | literal s => simp [Piece.sql, ofSql, Piece.literal?]
  | connector s => simp [Piece.sql, ofSql, Piece.literal?]
  | inserted s =>
      have hs : marks s = 0 := h
      simp [Piece.sql, ofSql, Piece.literal?, hs]
  | placeholder v type => simp [Piece.sql, ofValue, placeholder, Piece.literal?, marks]

/-- The question marks of the SQL are one for each value and those of the texts that
templates have. -/
theorem marks_ofPieces {ps : List Piece} (h : ∀ p ∈ ps, p.IsSafe) :
    marks (ofPieces ps).sql = (ofPieces ps).values.length + Piece.literalMarks ps := by
  induction ps with
  | nil => rfl
  | cons p ps ih =>
      have hp := marks_sql_of_isSafe (h p List.mem_cons_self)
      have hps := ih fun q hq => h q (List.mem_cons_of_mem p hq)
      rw [ofPieces_cons, append_sql, append_values, marks_append, hp, hps,
        Piece.literalMarks_cons, List.length_append]
      omega

/-- The value at a place is that of the placeholder before which as many values stand. -/
theorem exists_placeholder {ps : List Piece} {k : Nat} {v : Value} {type : ValueType}
    (hv : (ofPieces ps).values[k]? = some v) (ht : (ofPieces ps).types[k]? = some type) :
    ∃ before after, ps = before ++ .placeholder v type :: after ∧
      (ofPieces before).values.length = k := by
  induction ps generalizing k with
  | nil => cases hv
  | cons p ps ih =>
      -- A piece that is no placeholder moves no place; a placeholder has place zero.
      have skip {j : Nat} (hn : p.sql.values.length = p.sql.types.length)
          (hk : k = p.sql.values.length + j) :
          ∃ before after, p :: ps = before ++ .placeholder v type :: after ∧
            (ofPieces before).values.length = k := by
        subst hk
        rw [ofPieces_cons, append_values, List.getElem?_append_right (Nat.le_add_right _ _),
          Nat.add_sub_cancel_left] at hv
        rw [ofPieces_cons, append_types, hn, List.getElem?_append_right (Nat.le_add_right _ _),
          Nat.add_sub_cancel_left] at ht
        obtain ⟨before, after, hps, hlen⟩ := ih hv ht
        refine ⟨p :: before, after, by rw [hps, List.cons_append], ?_⟩
        rw [ofPieces_cons, append_values, List.length_append, hlen]
      cases p with
      | literal s => exact skip rfl (Nat.zero_add k).symm
      | connector s => exact skip rfl (Nat.zero_add k).symm
      | inserted s => exact skip rfl (Nat.zero_add k).symm
      | placeholder w t =>
          cases k with
          | zero =>
              cases hv
              cases ht
              exact ⟨[], ps, rfl, rfl⟩
          | succ k => exact skip rfl (Nat.add_comm k 1)

theorem ofPieces_listed (ps : List Piece) :
    ofPieces (Piece.listed ps) =
      ⟨listed (ps.map fun p => p.sql.sql), ps.flatMap fun p => p.sql.values,
        ps.flatMap fun p => p.sql.types⟩ := by
  have hseparated : (ps.intersperse (.inserted ", ")).map Piece.sql =
      (ps.map Piece.sql).intersperse (.ofSql ", ") := by
    induction ps with
    | nil => rfl
    | cons p ps ih =>
        cases ps with
        | nil => rfl
        | cons q ps =>
            rw [List.intersperse_cons_cons, List.map_cons, List.map_cons, ih]
            rfl
  rw [ofPieces_eq_join, Piece.listed, List.map_cons, List.map_append, hseparated]
  exact (join_enclosed ", " (.ofSql "(") (.ofSql ")") (ps.map Piece.sql)).trans
    (by ext1 <;> simp [ofSql, listed, Function.comp_def, List.flatMap_map])

end BoundSql

end SqlTemplate
