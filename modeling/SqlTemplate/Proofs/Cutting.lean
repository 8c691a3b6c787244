import Mathlib
import SqlTemplate.Error
import SqlTemplate.Proofs.ByteOffsets
import SqlTemplate.Proofs.Trimming

/-!
# Readings that cut a text

A reading may work with offsets: it takes a part of its text between two of them, and reads on in
this part (`Text.Part`). If it asks for a part that there is not, it gives nothing. `Cutting` is such
a reading with a record of its cuts, and `Cutting.Gives` says that it gives a result and that all of
its cuts can be made. It also says between which offsets the cuts are, and that no cut goes back to
what is in front of an earlier one, so that what is known of readings holds of a reading that is
composed of them (`Cutting.Gives.bind`, `Cutting.Gives.slice_bind`).
-/

namespace SqlTemplate

open String (utf8Len)

namespace Text

/-- A part of a text, and the offset at which it starts. -/
structure Part where
  start : Nat
  text : List Char

namespace Part

/-- The offset behind the part. -/
def stop (p : Part) : Nat :=
  p.start + utf8Len p.text

/-- The part without the blanks at its ends. -/
def trim (p : Part) : Part :=
  ⟨p.start + utf8Len (p.text.takeWhile isBlank), Text.trim p.text⟩

/-- The part stands in the text at its offset. -/
def StandsIn (p : Part) (s : List Char) : Prop :=
  ∃ before after, before ++ p.text ++ after = s ∧ utf8Len before = p.start

variable {p : Part} {s a t b : List Char}

theorem start_le_stop (p : Part) : p.start ≤ p.stop :=
  Nat.le_add_right _ _

theorem standsIn_whole (s : List Char) : StandsIn ⟨0, s⟩ s :=
  ⟨[], [], List.append_nil s, rfl⟩

/-- A part of the part stands in the text behind what is in front of it. -/
theorem StandsIn.part (hp : p.StandsIn s) (h : a ++ t ++ b = p.text) :
    StandsIn ⟨p.start + utf8Len a, t⟩ s := by
  obtain ⟨before, after, hs, hstart⟩ := hp
  refine ⟨before ++ a, b ++ after, ?_, ?_⟩
  · rw [← hs, ← h]
    simp
  · rw [String.utf8Len_append, hstart]

theorem exists_append_trim (p : Part) :
    ∃ b, p.text.takeWhile isBlank ++ Text.trim p.text ++ b = p.text := by
  obtain ⟨b, hb, -⟩ := trimEnd_append_blanks (trimStart p.text)
  refine ⟨b, ?_⟩
  rw [List.append_assoc]
  exact (congrArg _ hb).trans (blanks_append_trimStart p.text)

theorem StandsIn.trim (hp : p.StandsIn s) : p.trim.StandsIn s := by
  obtain ⟨b, hb⟩ := exists_append_trim p
  exact hp.part hb

theorem start_le_trim (p : Part) : p.start ≤ p.trim.start :=
  Nat.le_add_right _ _

theorem stop_trim_le (p : Part) : p.trim.stop ≤ p.stop := by
  obtain ⟨b, hb⟩ := exists_append_trim p
  have hlength := congrArg utf8Len hb
  rw [String.utf8Len_append, String.utf8Len_append] at hlength
  simp only [stop, trim]
  omega

end Part

/-- A cut of a text, from one offset to another one. -/
structure Cut where
  start : Nat
  stop : Nat
deriving DecidableEq, Repr

namespace Cut

/-- The cut can be made. -/
structure IsValid (cut : Cut) (s : List Char) : Prop where
  start : IsBoundary s cut.start
  stop : IsBoundary s cut.stop
  le : cut.start ≤ cut.stop

/-- The second cut does not start in front of the first one. It is behind the part that the first
one takes, or in it. -/
def Precedes (cut cut' : Cut) : Prop :=
  cut.start ≤ cut'.start ∧ (cut.stop ≤ cut'.start ∨ cut'.stop ≤ cut.stop)

end Cut

end Text

open Text (Cut Part)

/-- A reading that cuts a text: its cuts, in the order in which they are made, and what it gives,
which is nothing if a cut cannot be made. -/
structure Cutting (α : Type) where
  cuts : List Cut
  result : Option (Except ErrorKind α)

namespace Cutting

variable {α β : Type}

def ofExcept (r : Except ErrorKind α) : Cutting α :=
  ⟨[], some r⟩

/-- Reads on, unless there was a fault or a cut could not be made. -/
protected def bind (x : Cutting α) (f : α → Cutting β) : Cutting β :=
  match x.result with
  | some (.ok a) => ⟨x.cuts ++ (f a).cuts, (f a).result⟩
  | some (.error kind) => ⟨x.cuts, some (.error kind)⟩
  | none => ⟨x.cuts, none⟩

instance : Monad Cutting where
  pure a := ofExcept (.ok a)
  bind := Cutting.bind

/-- Takes a part of the part, between two offsets in it. -/
def slice (p : Part) (start stop : Nat) : Cutting Part where
  cuts := [⟨p.start + start, p.start + stop⟩]
  result := (Text.slice? p.text start stop).map fun t => .ok ⟨p.start + start, t⟩

/-- Takes a part of another text, which is not recorded. -/
def sliceOther (s : List Char) (start stop : Nat) : Cutting (List Char) where
  cuts := []
  result := (Text.slice? s start stop).map .ok

variable {x : Cutting α} {f : α → Cutting β} {a t b : List Char}

theorem bind_of_ok {v : α} (h : x.result = some (.ok v)) :
    x >>= f = ⟨x.cuts ++ (f v).cuts, (f v).result⟩ := by
  change Cutting.bind x f = _
  rw [Cutting.bind, h]

theorem bind_of_error {kind : ErrorKind} (h : x.result = some (.error kind)) :
    x >>= f = ⟨x.cuts, some (.error kind)⟩ := by
  change Cutting.bind x f = _
  rw [Cutting.bind, h]

@[simp] theorem ofExcept_ok_bind (v : α) (f : α → Cutting β) : ofExcept (.ok v) >>= f = f v := rfl

theorem sliceOther_bind {other : List Char} (h : a ++ t ++ b = other)
    (f : List Char → Cutting β) : sliceOther other (utf8Len a) (utf8Len (a ++ t)) >>= f = f t := by
  have hresult : (sliceOther other (utf8Len a) (utf8Len (a ++ t))).result = some (.ok t) := by
    rw [sliceOther, Text.slice?_eq_some_iff.2 ⟨a, b, h, rfl, rfl⟩, Option.map_some]
  rw [bind_of_ok hresult]
  rfl

/-- The reading gives the result. Its cuts can be made in the text; they are between the two
offsets, and each is behind the ones before it or in the parts that they take. -/
structure Gives (s : List Char) (low high : Nat) (x : Cutting α) (r : Except ErrorKind α) :
    Prop where
  result : x.result = some r
  valid : ∀ cut ∈ x.cuts, cut.IsValid s
  within : ∀ cut ∈ x.cuts, low ≤ cut.start ∧ cut.stop ≤ high
  ordered : x.cuts.Pairwise Cut.Precedes

namespace Gives

variable {s : List Char} {low mid high : Nat} {r : Except ErrorKind α}
  {q : Except ErrorKind β}

theorem ofExcept (s : List Char) (low high : Nat) (r : Except ErrorKind α) :
    Gives s low high (ofExcept r) r where
  result := rfl
  valid := List.forall_mem_nil _
  within := List.forall_mem_nil _
  ordered := .nil

theorem mono {low' high' : Nat} (h : Gives s low high x r) (hlow : low' ≤ low)
    (hhigh : high ≤ high') : Gives s low' high' x r where
  result := h.result
  valid := h.valid
  within cut hcut := by
    have hwithin := h.within cut hcut
    omega
  ordered := h.ordered

/-- Behind a fault nothing is read. -/
theorem bind_error {kind : ErrorKind} (h : Gives s low high x (.error kind))
    (f : α → Cutting β) : Gives s low high (x >>= f) (.error kind) := by
  rw [bind_of_error h.result]
  exact ⟨rfl, h.valid, h.within, h.ordered⟩

/-- What is composed of readings, one behind the other, gives what is composed of their
results. -/
theorem bind {g : α → Except ErrorKind β} (hx : Gives s low mid x r) (hlow : low ≤ mid)
    (hhigh : mid ≤ high) (hf : ∀ v, r = .ok v → Gives s mid high (f v) (g v)) :
    Gives s low high (x >>= f) (r >>= g) := by
  have hx' := hx.mono (Nat.le_refl low) hhigh
  cases r with
  | error kind => exact hx'.bind_error f
  | ok v =>
      have hv := hf v rfl
      have hv' := hv.mono hlow (Nat.le_refl high)
      rw [bind_of_ok hx.result]
      refine ⟨hv.result, ?_, ?_, ?_⟩
      · exact List.forall_mem_append.2 ⟨hx.valid, hv.valid⟩
      · exact List.forall_mem_append.2 ⟨hx'.within, hv'.within⟩
      · refine List.pairwise_append.2 ⟨hx.ordered, hv.ordered, fun cut hcut cut' hcut' => ?_⟩
        have hbehind := (hx.within cut hcut).2.trans (hv.within cut' hcut').1
        exact ⟨(hx.valid cut hcut).le.trans hbehind, .inl hbehind⟩

theorem map (hx : Gives s low high x r) (hle : low ≤ high) (g : α → β) :
    Gives s low high (x >>= fun v => pure (g v)) (r.map g) := by
  have hbind : r.map g = r >>= fun v => .ok (g v) := by cases r <;> rfl
  rw [hbind]
  exact hx.bind hle (Nat.le_refl high) fun v _ => ofExcept s high high (.ok (g v))

/-- A part that is there is taken, and read between its ends. -/
theorem slice_bind {p : Part} {f : Part → Cutting β} (hp : p.StandsIn s)
    (h : a ++ t ++ b = p.text)
    (hf : Gives s (p.start + utf8Len a) (p.start + utf8Len (a ++ t)) (f ⟨p.start + utf8Len a, t⟩)
      q) :
    Gives s (p.start + utf8Len a) (p.start + utf8Len (a ++ t))
      (slice p (utf8Len a) (utf8Len (a ++ t)) >>= f) q := by
  obtain ⟨before, after, hs, hstart⟩ := hp
  have hresult : (slice p (utf8Len a) (utf8Len (a ++ t))).result =
      some (.ok ⟨p.start + utf8Len a, t⟩) := by
    rw [slice, Text.slice?_eq_some_iff.2 ⟨a, b, h, rfl, rfl⟩, Option.map_some]
  have hvalid : Cut.IsValid ⟨p.start + utf8Len a, p.start + utf8Len (a ++ t)⟩ s := by
    refine ⟨⟨before ++ a, t ++ b ++ after, ?_, ?_⟩, ⟨before ++ (a ++ t), b ++ after, ?_, ?_⟩, ?_⟩
    · rw [← hs, ← h]
      simp
    · rw [String.utf8Len_append, hstart]
    · rw [← hs, ← h]
      simp
    · rw [String.utf8Len_append, hstart]
    · simp
  rw [bind_of_ok hresult]
  refine ⟨hf.result, ?_, ?_, ?_⟩
  · exact List.forall_mem_cons.2 ⟨hvalid, hf.valid⟩
  · exact List.forall_mem_cons.2 ⟨⟨Nat.le_refl _, Nat.le_refl _⟩, hf.within⟩
  · refine List.pairwise_cons.2 ⟨fun cut hcut => ?_, hf.ordered⟩
    obtain ⟨hlow, hhigh⟩ := hf.within cut hcut
    exact ⟨hlow, .inr hhigh⟩

end Gives

end Cutting

end SqlTemplate
