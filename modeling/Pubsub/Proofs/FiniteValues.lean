import Pubsub.Json.Parser

/-!
# Values that are read are finite

A double that is out of range is refused when a number is read, so no text denotes an infinity or a
double that is no number, at whatever depth. This is what an interpretation of a body relies on that
takes the integer part of a double without a look at it.

The statement is carried through the reader as the reader is built: `Yields` says it of the numbers,
then of the scalars, then of the items and fields under the assumption that the values in them are
finite, and at last, by induction on the depth that is left, of every value.
-/

namespace Pubsub

namespace Json

variable {α : Type}

/-- **A finite value**: every double in it is finite. -/
inductive IsFinite : Json → Prop where
  | null : IsFinite .null
  | bool (b : Bool) : IsFinite (.bool b)
  | int (n : Int) : IsFinite (.int n)
  | float {x : Binary64} (h : x.isFinite = true) : IsFinite (.float x)
  | str (s : String) : IsFinite (.str s)
  | arr {items : List Json} (h : ∀ item ∈ items, IsFinite item) : IsFinite (.arr items)
  | obj {fields : List (String × Json)} (h : ∀ field ∈ fields, IsFinite field.2) :
    IsFinite (.obj fields)

/-- The items of a finite list are finite. -/
theorem IsFinite.item {items : List Json} (h : IsFinite (.arr items)) {item : Json}
    (hm : item ∈ items) : item.IsFinite := by
  cases h with
  | arr h => exact h item hm

/-- Whatever the reader takes off the front of a text satisfies `Q`. -/
def Yields (Q : α → Prop) (read : Reader α) : Prop :=
  ∀ s value rest, read s = some (value, rest) → Q value

/-! ## Numbers and words -/

theorem isFinite_finiteDecimal? {negative : Bool} {digits : Nat} {exponent : Int} {value : Json}
    (h : finiteDecimal? negative digits exponent = some value) : value.IsFinite := by
  unfold finiteDecimal? at h
  dsimp only at h
  split at h
  · rename_i hfinite
    cases h
    exact .float hfinite
  · cases h

theorem isFinite_integerValue? {negative : Bool} {n : Nat} {value : Json}
    (h : integerValue? negative n = some value) : value.IsFinite := by
  unfold integerValue? at h
  generalize (if negative then -(n : Int) else n) = signed at h
  dsimp only at h
  split at h
  · cases h
    exact .int _
  · exact isFinite_finiteDecimal? h

theorem yields_readUnsigned (negative : Bool) : Yields IsFinite (readUnsigned negative) := by
  intro s value rest h
  unfold readUnsigned at h
  obtain ⟨⟨whole, tail⟩, -, h⟩ := Option.bind_eq_some_iff.1 h
  dsimp only at h
  split at h
  · obtain ⟨read, hread, h⟩ := Option.bind_eq_some_iff.1 h
    cases h
    exact isFinite_integerValue? hread
  · obtain ⟨read, hread, h⟩ := Option.bind_eq_some_iff.1 h
    cases h
    exact isFinite_finiteDecimal? hread

theorem yields_readWord (word : String) {value : Json} (hv : value.IsFinite) :
    Yields IsFinite (readWord word value) := by
  intro s read rest h
  unfold readWord at h
  split at h
  · cases h
    exact hv
  · cases h

theorem yields_readScalar : Yields IsFinite readScalar := by
  intro s value rest h
  unfold readScalar at h
  split at h
  · obtain ⟨⟨chars, tail⟩, -, h⟩ := Option.map_eq_some_iff.1 h
    cases h
    exact .str _
  · exact yields_readUnsigned true _ _ _ h
  · exact yields_readWord "null" .null _ _ _ h
  · exact yields_readWord "true" (.bool true) _ _ _ h
  · exact yields_readWord "false" (.bool false) _ _ _ h
  · exact yields_readUnsigned false _ _ _ h

/-! ## Lists and objects -/

theorem yields_readItems {item : Reader Json} (hi : Yields IsFinite item) (fuel : Nat) :
    Yields (fun items => ∀ item ∈ items, item.IsFinite) (readItems item fuel) := by
  induction fuel with
  | zero => intro s items rest h; cases h
  | succ fuel ih =>
    intro s items rest h
    unfold readItems at h
    obtain ⟨⟨value, tail⟩, hvalue, h⟩ := Option.bind_eq_some_iff.1 h
    have hfirst := hi _ _ _ hvalue
    dsimp only at h
    split at h
    · obtain ⟨⟨values, others⟩, hvalues, h⟩ := Option.bind_eq_some_iff.1 h
      cases h
      exact List.forall_mem_cons.2 ⟨hfirst, ih _ _ _ hvalues⟩
    · cases h
      exact List.forall_mem_singleton.2 hfirst
    · cases h

theorem yields_readFields {item : Reader Json} (hi : Yields IsFinite item) (fuel : Nat) :
    Yields (fun fields => ∀ field ∈ fields, field.2.IsFinite) (readFields item fuel) := by
  induction fuel with
  | zero => intro s fields rest h; cases h
  | succ fuel ih =>
    intro s fields rest h
    unfold readFields at h
    split at h
    · obtain ⟨⟨key, tail⟩, -, h⟩ := Option.bind_eq_some_iff.1 h
      dsimp only at h
      split at h
      · obtain ⟨⟨value, others⟩, hvalue, h⟩ := Option.bind_eq_some_iff.1 h
        have hfirst := hi _ _ _ hvalue
        dsimp only at h
        split at h
        · obtain ⟨⟨fields', last⟩, hfields, h⟩ := Option.bind_eq_some_iff.1 h
          cases h
          exact List.forall_mem_cons.2 ⟨hfirst, ih _ _ _ hfields⟩
        · cases h
          exact List.forall_mem_singleton.2 hfirst
        · cases h
      · cases h
    · cases h

/-- A field that is set keeps the fields finite. -/
theorem isFinite_setField {key : String} {value : Json} (hv : value.IsFinite)
    {fields : List (String × Json)} (h : ∀ field ∈ fields, field.2.IsFinite) :
    ∀ field ∈ setField key value fields, field.2.IsFinite := by
  induction fields with
  | nil => exact List.forall_mem_singleton.2 hv
  | cons first rest ih =>
    obtain ⟨hfirst, hrest⟩ := List.forall_mem_cons.1 h
    unfold setField
    split
    · exact List.forall_mem_cons.2 ⟨hv, hrest⟩
    · exact List.forall_mem_cons.2 ⟨hfirst, ih hrest⟩

theorem isFinite_ofSettings {settings : List (String × Json)}
    (h : ∀ setting ∈ settings, setting.2.IsFinite) :
    ∀ field ∈ ofSettings settings, field.2.IsFinite := by
  refine List.foldlRecOn (motive := fun fields : List (String × Json) =>
    ∀ field ∈ fields, field.2.IsFinite) settings _ ?_ fun fields hfields setting hm => ?_
  · rintro field ⟨⟩
  · exact isFinite_setField (h setting hm) hfields

/-! ## Values -/

theorem yields_readValue (depth : Nat) : Yields IsFinite (readValue depth) := by
  induction depth with
  | zero =>
    intro s value rest h
    unfold readValue at h
    split at h
    · cases h
    · cases h
    · exact yields_readScalar _ _ _ h
  | succ depth ih =>
    intro s value rest h
    unfold readValue at h
    split at h
    · split at h
      · cases h
        exact .arr (by simp)
      · obtain ⟨⟨items, tail⟩, hitems, h⟩ := Option.map_eq_some_iff.1 h
        cases h
        exact .arr (yields_readItems ih _ _ _ _ hitems)
    · split at h
      · cases h
        exact .obj (by simp)
      · obtain ⟨⟨fields, tail⟩, hfields, h⟩ := Option.map_eq_some_iff.1 h
        cases h
        exact .obj (isFinite_ofSettings (yields_readFields ih _ _ _ _ hfields))
    · exact yields_readScalar _ _ _ h

/-- **A value that was read is finite.** -/
theorem isFinite_of_decode? {bytes : Bytes} {value : Json} (h : decode? bytes = some value) :
    value.IsFinite := by
  unfold decode? at h
  obtain ⟨text, -, h⟩ := Option.bind_eq_some_iff.1 h
  unfold parse? at h
  obtain ⟨⟨read, rest⟩, hread, h⟩ := Option.bind_eq_some_iff.1 h
  dsimp only at h
  split at h
  · cases h
    exact yields_readValue readDepth _ _ _ hread
  · cases h

end Json

end Pubsub
