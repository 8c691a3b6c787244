import SqlTemplate.Evaluation.Run
import SqlTemplate.Proofs.Piece

/-!
# Traces

A trace is the history of a run: what the evaluation of some nodes does in the context of
their block, one thing after another, and the error that ended it if one did. A run forgets
its history; a trace keeps of every piece where it comes from, of every connector whether
it was dropped, and of every act how many taken parts of conditions it stands in.

A trace has no flag of its own. Whether the block counts after a run is whether it counted
before or some act of the trace makes it count (`Trace.run`). Everything that is done with
runs is done with traces in the same way, and `Trace.run` commutes with all of it.

`Possible` says once what a trace can be made of. What holds of every possible trace is
proved by induction on it, without looking at nodes again.
-/

namespace SqlTemplate

/-- What is done in the context of a block. -/
inductive Act where
  /-- A text of the template is added. -/
  | text (s : String)
  /-- A connector is added, or dropped. -/
  | connector (word : String) (kept : Bool)
  /-- What a variable gives is added. -/
  | value (ps : List Piece)
  /-- A taken part of a condition comes to its end. -/
  | partEnd
  /-- A block in the block is added. -/
  | block (ps : List Piece)

namespace Act

def pieces : Act → List Piece
  | .text s => [.literal s]
  | .connector word kept => if kept then [.connector word] else []
  | .value ps | .block ps => ps
  | .partEnd => []

/-- Whether the act makes the block count. -/
def counts : Act → Bool
  | .text _ | .connector .. => false
  | .value _ | .partEnd | .block _ => true

end Act

/-- An act and where it is done. -/
structure Event where
  /-- In how many taken parts of conditions of the block. -/
  depth : Nat
  act : Act

/-- The event as one of a part in which it stands. -/
def Event.inPart (e : Event) : Event :=
  { e with depth := e.depth + 1 }

/-- What an evaluation does. -/
structure Trace where
  events : List Event
  /-- The error at which the evaluation ended early. -/
  failure : Option TemplateError

namespace Trace

/-- All that was added. -/
def pieces (t : Trace) : List Piece :=
  t.events.flatMap fun e => e.act.pieces

def counts (t : Trace) : Bool :=
  t.events.any fun e => e.act.counts

def idle : Trace := ⟨[], none⟩

def failed (e : TemplateError) : Trace := ⟨[], some e⟩

def ofAct (a : Act) : Trace := ⟨[⟨0, a⟩], none⟩

/-- A variable gives something, or it fails. -/
def ofResult : Except TemplateError (List Piece) → Trace
  | .ok ps => ofAct (.value ps)
  | .error e => failed e

/-- The trace of a taken part of a condition. -/
def asPart (t : Trace) : Trace :=
  match t.failure with
  | some e => ⟨t.events.map .inPart, some e⟩
  | none => ⟨t.events.map .inPart ++ [⟨0, .partEnd⟩], none⟩

/-- The trace of a block of its own. -/
def asBlock (t : Trace) : Trace :=
  match t.failure with
  | some e => failed e
  | none => if t.counts then ofAct (.block t.pieces) else idle

/-- The trace that goes on with another one. -/
def andThen (t : Trace) (enabled : Bool) (next : Bool → Trace) : Trace :=
  match t.failure with
  | some _ => t
  | none =>
    let s := next (enabled || t.counts)
    ⟨t.events ++ s.events, s.failure⟩

def all : List (Bool → Trace) → Bool → Trace
  | [], _ => idle
  | f :: steps, enabled => (f enabled).andThen enabled (all steps)

def toResult (t : Trace) : Except TemplateError (List Piece) :=
  match t.failure with
  | none => .ok t.pieces
  | some e => .error e

/-- The run with this history in a block that counts or does not count before. -/
def run (t : Trace) (enabled : Bool) : Run :=
  ⟨.ofPieces t.pieces, enabled || t.counts, t.failure⟩

@[simp] theorem pieces_ofAct (a : Act) : (ofAct a).pieces = a.pieces :=
  List.append_nil a.pieces

@[simp] theorem counts_ofAct (a : Act) : (ofAct a).counts = a.counts :=
  Bool.or_false a.counts

@[simp] theorem failure_ofAct (a : Act) : (ofAct a).failure = none := rfl

theorem pieces_asPart (t : Trace) : t.asPart.pieces = t.pieces := by
  have hmap : (t.events.map Event.inPart).flatMap (fun e => e.act.pieces) = t.pieces := by
    rw [List.flatMap_map]
    rfl
  cases h : t.failure with
  | some e => simp only [asPart, h, pieces, hmap]
  | none =>
      simp only [asPart, h, pieces, List.flatMap_append, hmap]
      exact List.append_nil t.pieces

theorem counts_asPart (t : Trace) :
    t.asPart.counts = (t.counts || t.failure.isNone) := by
  have hmap : (t.events.map Event.inPart).any (fun e => e.act.counts) = t.counts := by
    rw [List.any_map]
    rfl
  cases h : t.failure with
  | some e => simp only [asPart, h, counts, hmap, Option.isNone_some, Bool.or_false]
  | none =>
      simp only [asPart, h, counts, List.any_append, hmap]
      rfl

theorem failure_asPart (t : Trace) : t.asPart.failure = t.failure := by
  cases h : t.failure with
  | some e => simp only [asPart, h]
  | none => simp only [asPart, h]

theorem mem_events_andThen {t : Trace} {enabled : Bool} {next : Bool → Trace} {e : Event}
    (h : e ∈ (t.andThen enabled next).events) :
    e ∈ t.events ∨ t.failure = none ∧ e ∈ (next (enabled || t.counts)).events := by
  cases hf : t.failure with
  | some _ =>
      rw [andThen, hf] at h
      exact .inl h
  | none =>
      simp only [andThen, hf, List.mem_append] at h
      exact h.imp_right fun h => ⟨rfl, h⟩

theorem counts_eq_false_of_andThen {t : Trace} {enabled : Bool} {next : Bool → Trace}
    (h : (t.andThen enabled next).counts = false) :
    t.counts = false ∧
      (t.failure = none → (next (enabled || t.counts)).counts = false) := by
  cases hf : t.failure with
  | some _ =>
      rw [andThen, hf] at h
      refine ⟨h, fun hnone => ?_⟩
      cases hnone
  | none =>
      simp only [andThen, hf, counts, List.any_append, Bool.or_eq_false_iff] at h
      exact ⟨h.1, fun _ => h.2⟩

theorem failure_eq_none_of_andThen {t : Trace} {enabled : Bool} {next : Bool → Trace}
    (h : (t.andThen enabled next).failure = none) :
    t.failure = none ∧ (next (enabled || t.counts)).failure = none := by
  cases hf : t.failure with
  | some _ =>
      rw [andThen, hf, hf] at h
      cases h
  | none =>
      simp only [andThen, hf] at h
      exact ⟨rfl, h⟩

/-- What is done in a part, or its end. -/
theorem mem_events_asPart {t : Trace} {e : Event} (h : e ∈ t.asPart.events) :
    (∃ f ∈ t.events, f.inPart = e) ∨ e = ⟨0, .partEnd⟩ := by
  rw [asPart] at h
  split at h
  next => exact .inl (List.mem_map.1 h)
  next =>
    rw [List.mem_append, List.mem_singleton, List.mem_map] at h
    exact h

/-- A block is one act at most. -/
theorem mem_events_asBlock {t : Trace} {e : Event} (h : e ∈ t.asBlock.events) :
    ∃ ps, e = ⟨0, .block ps⟩ := by
  rw [asBlock] at h
  split at h
  next => cases h
  next =>
    split at h
    next => exact ⟨t.pieces, List.mem_singleton.1 h⟩
    next => cases h

theorem counts_eq_false_of_mem {t : Trace} (h : t.counts = false) {e : Event}
    (he : e ∈ t.events) : e.act.counts = false := by
  simpa using List.any_eq_false.1 h e he

/-- A block adds what is in it or nothing. -/
theorem mem_pieces_of_mem_pieces_asBlock {t : Trace} {p : Piece}
    (h : p ∈ t.asBlock.pieces) : p ∈ t.pieces := by
  rw [asBlock] at h
  split at h
  next => cases h
  next =>
    split at h
    next =>
      rw [pieces_ofAct] at h
      exact h
    next => cases h

theorem run_idle (enabled : Bool) : idle.run enabled = .idle enabled := by
  simp [run, idle, pieces, counts, Run.idle]

theorem run_failed (e : TemplateError) (enabled : Bool) :
    (failed e).run enabled = .failed e enabled := by
  simp [run, failed, pieces, counts, Run.failed]

theorem run_text (s : String) (enabled : Bool) :
    (ofAct (.text s)).run enabled = .ofSql s enabled := by
  simp [run, Act.pieces, Act.counts, BoundSql.ofPieces_singleton, Piece.sql, Run.ofSql]

theorem run_connector (word : String) (kept enabled : Bool) :
    (ofAct (.connector word kept)).run enabled =
      .ofSql (if kept then word else "") enabled := by
  cases kept with
  | true =>
      simp [run, Act.pieces, Act.counts, BoundSql.ofPieces_singleton, Piece.sql, Run.ofSql]
  | false => simp [run, Act.pieces, Act.counts, Run.ofSql, BoundSql.empty, BoundSql.ofSql]

theorem run_ofResult (r : Except TemplateError (List Piece)) (enabled : Bool) :
    (ofResult r).run enabled = .ofResult (r.map .ofPieces) enabled := by
  cases r with
  | error e => exact run_failed e enabled
  | ok ps => simp [run, ofResult, Act.pieces, Act.counts, Run.ofResult, Except.map]

theorem run_andThen (t : Trace) (enabled : Bool) (next : Bool → Trace) :
    (t.andThen enabled next).run enabled =
      (t.run enabled).andThen fun b => (next b).run b := by
  cases h : t.failure with
  | some e => simp [andThen, run, Run.andThen, h]
  | none =>
      simp [andThen, run, Run.andThen, h, pieces, counts, BoundSql.ofPieces_append,
        Bool.or_assoc]

theorem run_all (fs : List (Bool → Trace)) (enabled : Bool) :
    (all fs enabled).run enabled = .all (fs.map fun f b => (f b).run b) enabled := by
  induction fs generalizing enabled with
  | nil => exact run_idle enabled
  | cons f fs ih =>
      have hall : (fun b => (all fs b).run b) = Run.all (fs.map fun f b => (f b).run b) :=
        funext ih
      rw [all, run_andThen, hall]
      rfl

theorem run_asPart (t : Trace) (enabled : Bool) :
    t.asPart.run enabled = (t.run enabled).enable := by
  rw [run, pieces_asPart, counts_asPart, failure_asPart]
  cases h : t.failure with
  | some e => simp [run, Run.enable, h]
  | none => simp [run, Run.enable, h]

theorem run_asBlock (t : Trace) (enabled : Bool) :
    t.asBlock.run enabled = (t.run false).asBlock enabled := by
  cases h : t.failure with
  | some e =>
      simp only [asBlock, h, run_failed]
      simp [Run.asBlock, run, h]
  | none =>
      cases hc : t.counts with
      | true =>
          simp only [asBlock, h, hc, if_true]
          simp [Run.asBlock, run, h, hc, Act.pieces, Act.counts]
      | false =>
          simp only [asBlock, h, hc, Bool.false_eq_true, if_false, run_idle]
          simp [Run.asBlock, run, h, hc]

theorem toResult_run (t : Trace) (enabled : Bool) :
    (t.run enabled).toResult = t.toResult.map .ofPieces := by
  cases h : t.failure with
  | some e => simp [run, Run.toResult, toResult, h, Except.map]
  | none => simp [run, Run.toResult, toResult, h, Except.map]

theorem toResult_eq_ok_iff {t : Trace} {ps : List Piece} :
    t.toResult = .ok ps ↔ t.failure = none ∧ t.pieces = ps := by
  cases h : t.failure with
  | some e => simp [toResult, h]
  | none => simp [toResult, h]

/-- What is added one after the other is added by the one and then by the other. -/
theorem exists_of_toResult_andThen {t : Trace} {enabled : Bool} {next : Bool → Trace}
    {ps : List Piece} (h : (t.andThen enabled next).toResult = .ok ps) :
    ∃ qs rs, t.toResult = .ok qs ∧ (next (enabled || t.counts)).toResult = .ok rs ∧
      ps = qs ++ rs := by
  obtain ⟨hfailure, rfl⟩ := toResult_eq_ok_iff.1 h
  obtain ⟨ht, hnext⟩ := failure_eq_none_of_andThen hfailure
  refine ⟨_, _, toResult_eq_ok_iff.2 ⟨ht, rfl⟩, toResult_eq_ok_iff.2 ⟨hnext, rfl⟩, ?_⟩
  simp only [andThen, ht, pieces, List.flatMap_append]

theorem toResult_andThen {t : Trace} {enabled : Bool} {next : Bool → Trace}
    {qs rs : List Piece} (ht : t.toResult = .ok qs)
    (hnext : (next (enabled || t.counts)).toResult = .ok rs) :
    (t.andThen enabled next).toResult = .ok (qs ++ rs) := by
  obtain ⟨hfailure, rfl⟩ := toResult_eq_ok_iff.1 ht
  obtain ⟨hfailure', rfl⟩ := toResult_eq_ok_iff.1 hnext
  refine toResult_eq_ok_iff.2 ⟨?_, ?_⟩
  · simp only [andThen, hfailure, hfailure']
  · simp only [andThen, hfailure, pieces, List.flatMap_append]

/-- The traces that can arise in a block that counts or does not count before. A connector
is dropped in a block that does not count, if connectors are adjusted at all. What
variables can give is a parameter. -/
inductive Possible (adjust : Bool) (Given : List Piece → Prop) : Bool → Trace → Prop where
  | idle (enabled : Bool) : Possible adjust Given enabled idle
  | failed (enabled : Bool) (e : TemplateError) : Possible adjust Given enabled (failed e)
  | text (enabled : Bool) (s : String) : Possible adjust Given enabled (ofAct (.text s))
  | connector (enabled : Bool) (word : String) :
      Possible adjust Given enabled (ofAct (.connector word (enabled || !adjust)))
  | value (enabled : Bool) {ps : List Piece} (h : Given ps) :
      Possible adjust Given enabled (ofAct (.value ps))
  | andThen {enabled : Bool} {t : Trace} {next : Bool → Trace}
      (ht : Possible adjust Given enabled t)
      (hnext : Possible adjust Given (enabled || t.counts) (next (enabled || t.counts))) :
      Possible adjust Given enabled (t.andThen enabled next)
  | part {enabled : Bool} {t : Trace} (ht : Possible adjust Given enabled t) :
      Possible adjust Given enabled t.asPart
  | block (enabled : Bool) {t : Trace} (ht : Possible adjust Given false t) :
      Possible adjust Given enabled t.asBlock

namespace Possible

variable {adjust : Bool} {Given : List Piece → Prop} {enabled : Bool}

theorem ofResult {r : Except TemplateError (List Piece)}
    (h : ∀ ps, r = .ok ps → Given ps) : Possible adjust Given enabled (ofResult r) := by
  cases r with
  | error e => exact failed enabled e
  | ok ps => exact value enabled (h ps rfl)

theorem all {fs : List (Bool → Trace)} (h : ∀ f ∈ fs, ∀ b, Possible adjust Given b (f b)) :
    Possible adjust Given enabled (all fs enabled) := by
  induction fs generalizing enabled with
  | nil => exact idle enabled
  | cons f fs ih =>
      refine andThen (h f List.mem_cons_self enabled) ?_
      exact ih fun g hg => h g (List.mem_cons_of_mem f hg)

/-- What holds of texts, of connectors and of all that variables give holds of everything
that is added. -/
theorem forall_mem_pieces {P : Piece → Prop} (hliteral : ∀ s, P (.literal s))
    (hconnector : ∀ word, P (.connector word)) {t : Trace}
    (h : Possible adjust (fun ps => ∀ p ∈ ps, P p) enabled t) : ∀ p ∈ t.pieces, P p := by
  induction h with
  | idle => exact fun p hp => nomatch hp
  | failed => exact fun p hp => nomatch hp
  | text enabled s =>
      intro p hp
      rw [pieces_ofAct, Act.pieces, List.mem_singleton] at hp
      exact hp ▸ hliteral s
  | connector enabled word =>
      intro p hp
      rw [pieces_ofAct, Act.pieces] at hp
      split at hp
      next => exact List.mem_singleton.1 hp ▸ hconnector word
      next => cases hp
  | value enabled hps =>
      rw [pieces_ofAct]
      exact hps
  | andThen ht hnext iht ihnext =>
      intro p hp
      obtain ⟨e, he, hp⟩ := List.mem_flatMap.1 hp
      rcases mem_events_andThen he with he | ⟨-, he⟩
      · exact iht p (List.mem_flatMap.2 ⟨e, he, hp⟩)
      · exact ihnext p (List.mem_flatMap.2 ⟨e, he, hp⟩)
  | part ht ih =>
      rw [pieces_asPart]
      exact ih
  | block enabled ht ih =>
      intro p hp
      exact ih p (mem_pieces_of_mem_pieces_asBlock hp)

end Possible

end Trace

end SqlTemplate
