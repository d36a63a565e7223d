import Mathlib.Data.List.TakeWhile
import Pubsub.Json.Convert

/-!
# Which texts of digits denote integers

A timetoken is accepted if it is a text of digits in the wider sense, and it is read as an integer
when positions are compared. The two do not agree, and this module says how far: a text of digits
denotes an integer exactly if all of them are decimal and there are not too many of them.

What makes this short is that digits are none of the other signs of a numeral: they are not blank,
and those that are not decimal are not even ASCII.
-/

namespace Pubsub

/-! ## Digits and other signs -/

/-- No decimal digit is blank. -/
theorem decimalZeros_apart_blanks :
    ∀ first ∈ decimalZeros, ∀ range ∈ blanks, range.2 < first ∨ first + 9 < range.1 := by
  decide +kernel

/-- No other digit is blank either. -/
theorem looseDigits_apart_blanks :
    ∀ loose ∈ looseDigits, ∀ range ∈ blanks, range.2 < loose.1 ∨ loose.2 < range.1 := by
  decide +kernel

theorem looseDigits_not_ascii : ∀ loose ∈ looseDigits, 0x80 ≤ loose.1 := by decide +kernel

/-- **Digits are not blank.** -/
theorem isBlank_of_isDigit {c : Char} (h : isDigit c = true) : isBlank c = false := by
  refine Bool.eq_false_iff.2 fun hb => ?_
  obtain ⟨range, hr, hlo, hhi⟩ := inRanges_iff.1 hb
  unfold isDigit at h
  rcases Bool.or_eq_true_iff.1 h with hd | hl
  · obtain ⟨n, hn⟩ := Option.isSome_iff_exists.1 hd
    obtain ⟨first, hz, -⟩ := Option.map_eq_some_iff.1 hn
    have hrow := List.find?_some hz
    simp only [Bool.and_eq_true, decide_eq_true_eq] at hrow
    have hapart := decimalZeros_apart_blanks first (List.mem_of_find?_eq_some hz) range hr
    omega
  · obtain ⟨loose, hm, hlo', hhi'⟩ := inRanges_iff.1 hl
    have hapart := looseDigits_apart_blanks loose hm range hr
    omega

/-- A digit that is not decimal is not ASCII. -/
theorem toNat_of_isDigit {c : Char} (h : isDigit c = true) (hd : decimalValue c = none) :
    0x80 ≤ c.toNat := by
  unfold isDigit at h
  rw [hd] at h
  obtain ⟨loose, hm, hlo, -⟩ := inRanges_iff.1 h
  exact Nat.le_trans (looseDigits_not_ascii loose hm) hlo

namespace Numeral

/-- An ASCII digit is no other sign. -/
theorem ne_of_isDigit {c other : Char} (h : c.isDigit = true) (ho : other.isDigit = false) :
    c ≠ other := by
  rintro rfl
  rw [h] at ho
  cases ho

theorem isDigit_digitChar : ∀ n < 10, (Nat.digitChar n).isDigit = true := by decide

/-- A digit is rewritten to ASCII if it is decimal, and else stays what it is; none becomes a sign
of another kind. -/
theorem normalizeChar_of_isDigit {c : Char} (h : isDigit c = true) :
    (normalizeChar c).isDigit = (decimalValue c).isSome
    ∧ ∀ other : Char, other.toNat < 0x80 → other.isDigit = false → normalizeChar c ≠ other := by
  have hblank : isNumeralBlank c = false := by
    unfold isNumeralBlank
    rw [isBlank_of_isDigit h]
    rfl
  unfold normalizeChar
  rw [hblank, if_neg Bool.false_ne_true]
  cases hd : decimalValue c with
  | some n =>
    have hdigit := isDigit_digitChar n (decimalValue_lt hd)
    refine ⟨hdigit, ?_⟩
    rintro other - ho rfl
    rw [hdigit] at ho
    cases ho
  | none =>
    have hascii := toNat_of_isDigit h hd
    refine ⟨?_, ?_⟩
    · refine Bool.eq_false_iff.2 fun hc => ?_
      have hle : c.toNat ≤ 57 := (Char.isDigit_iff_toNat.1 hc).2
      omega
    · rintro other ho - hc
      change c = other at hc
      rw [← hc] at ho
      omega

/-! ## Reading digits -/

theorem underscoresSeparate_of_not_mem {s : List Char} (h : '_' ∉ s) :
    underscoresSeparate s = true := by
  induction s with
  | nil => rfl
  | cons c rest ih =>
    have hc : c ≠ '_' := fun hc => h (hc ▸ List.mem_cons_self)
    have hrest := ih fun hr => h (List.mem_cons_of_mem c hr)
    unfold underscoresSeparate
    split
    · rfl
    · rename_i heq
      cases heq
      exact absurd rfl hc
    · rename_i heq
      cases heq
      exact absurd rfl hc
    · rename_i heq
      cases heq
      exact hrest

/-- **What can be read of a text without underscores and spaces**: digits, at least one of them and
not too many, and nothing else. -/
theorem readDigits_eq_ok_iff {s : List Char} (h : ∀ c ∈ s, c ≠ '_' ∧ c ≠ ' ') :
    (∃ n, readDigits s = .ok n)
      ↔ s ≠ [] ∧ (∀ c ∈ s, c.isDigit = true) ∧ s.length ≤ maxIntegerDigits := by
  -- Reading takes digits and underscores, and of the latter there are none.
  have hstart : s.takeWhile (fun c => c.isDigit || c = '_') <+: s := List.takeWhile_prefix _
  have hdigit : ∀ c ∈ s.takeWhile (fun c => c.isDigit || c = '_'), c.isDigit = true := by
    intro c hc
    have hp := List.all_eq_true.1 List.all_takeWhile c hc
    have hne := (h c (hstart.mem hc)).1
    simpa [hne] using hp
  have hfilter : (s.takeWhile (fun c => c.isDigit || c = '_')).filter Char.isDigit
      = s.takeWhile (fun c => c.isDigit || c = '_') := List.filter_eq_self.2 hdigit
  have hhead : ((s.takeWhile (fun c => c.isDigit || c = '_')).head? == some '_') = false := by
    refine Bool.eq_false_iff.2 fun hu => ?_
    have hm := hstart.mem (List.mem_of_head? (eq_of_beq hu))
    exact (h '_' hm).1 rfl
  have hunderscores : underscoresSeparate (s.takeWhile (fun c => c.isDigit || c = '_')) = true :=
    underscoresSeparate_of_not_mem fun hu => (h '_' (hstart.mem hu)).1 rfl
  unfold readDigits
  dsimp only
  rw [hfilter, hhead, hunderscores]
  generalize hb : s.takeWhile (fun c => c.isDigit || c = '_') = body at *
  constructor
  · rintro ⟨n, hn⟩
    split at hn
    · cases hn
    · split at hn
      · cases hn
      · rename_i hlong
        split at hn
        · cases hn
        · rename_i hrest
          simp only [Bool.or_eq_true, Bool.not_eq_true', not_or, Bool.not_eq_true,
            Bool.not_eq_false, List.isEmpty_eq_false_iff, List.all_eq_true,
            decide_eq_true_eq] at hrest
          obtain ⟨hne, hspaces⟩ := hrest
          -- What follows the digits could only be spaces, so nothing does.
          have hnone : s.drop body.length = [] := by
            refine List.eq_nil_iff_forall_not_mem.2 fun c hc => ?_
            exact (h c (List.mem_of_mem_drop hc)).2 (hspaces c hc)
          have hwhole : body = s := hstart.eq_of_length_le (List.drop_eq_nil_iff.1 hnone)
          rw [← hwhole]
          exact ⟨hne, hdigit, Nat.not_lt.1 hlong⟩
  · rintro ⟨hne, hall, hlong⟩
    have hwhole : body = s := by
      rw [← hb]
      exact List.takeWhile_eq_self_iff.2 fun c hc => by rw [hall c hc, Bool.true_or]
    rw [hwhole, if_neg (by simp), if_neg (Nat.not_lt.2 hlong), if_neg (by simp [hne])]
    exact ⟨_, rfl⟩

end Numeral

/-! ## Texts of digits -/

/-- Does the check on timetokens accept the text? It is not empty, and all its characters are
digits. -/
def IsTimetoken (s : String) : Prop := s.toList ≠ [] ∧ ∀ c ∈ s.toList, isDigit c = true

/-- Does a text of digits denote an integer? All of them are decimal, and there are not too many. -/
def IsIntegerText (s : String) : Prop :=
  (∀ c ∈ s.toList, (decimalValue c).isSome = true) ∧ s.toList.length ≤ Numeral.maxIntegerDigits

theorem Numeral.readInteger_of_isTimetoken {s : String} (h : IsTimetoken s) :
    readInteger s = (readDigits (normalize s)).map fun n => (n : Int) := by
  have hsign : ∀ c ∈ normalize s, c ≠ ' ' ∧ c ≠ '-' ∧ c ≠ '+' := by
    intro c hc
    obtain ⟨d, hd, rfl⟩ := List.mem_map.1 hc
    have hother := (normalizeChar_of_isDigit (h.2 d hd)).2
    exact ⟨hother ' ' (by decide) rfl, hother '-' (by decide) rfl, hother '+' (by decide) rfl⟩
  have hdrop : (normalize s).dropWhile (· = ' ') = normalize s := by
    cases hn : normalize s with
    | nil => rfl
    | cons c rest =>
      have hc := (hsign c (hn ▸ List.mem_cons_self)).1
      rw [List.dropWhile_cons_of_neg (by simpa using hc)]
  unfold readInteger
  rw [hdrop]
  split
  · rename_i rest hn
    exact absurd rfl (hsign '-' (hn ▸ List.mem_cons_self)).2.1
  · rename_i rest hn
    exact absurd rfl (hsign '+' (hn ▸ List.mem_cons_self)).2.2
  · rfl

/-- **An accepted timetoken denotes an integer exactly if all its digits are decimal and there are
not too many of them.** -/
theorem Json.integerOfText_eq_ok_iff {s : String} (h : IsTimetoken s) :
    (∃ n, integerOfText s = .ok n) ↔ IsIntegerText s := by
  have hsigns : ∀ c ∈ Numeral.normalize s, c ≠ '_' ∧ c ≠ ' ' := by
    intro c hc
    obtain ⟨d, hd, rfl⟩ := List.mem_map.1 hc
    have hother := (Numeral.normalizeChar_of_isDigit (h.2 d hd)).2
    exact ⟨hother '_' (by decide) rfl, hother ' ' (by decide) rfl⟩
  have hread : (∃ n, integerOfText s = .ok n)
      ↔ ∃ n, Numeral.readDigits (Numeral.normalize s) = .ok n := by
    unfold integerOfText
    rw [Numeral.readInteger_of_isTimetoken h]
    cases Numeral.readDigits (Numeral.normalize s) with
    | ok n => exact ⟨fun _ => ⟨n, rfl⟩, fun _ => ⟨n, rfl⟩⟩
    | error fault =>
      constructor
      · rintro ⟨n, hn⟩
        cases fault <;> cases hn
      · rintro ⟨n, hn⟩
        cases hn
  rw [hread, Numeral.readDigits_eq_ok_iff hsigns]
  unfold IsIntegerText Numeral.normalize
  rw [List.length_map]
  constructor
  · rintro ⟨-, hdigits, hlong⟩
    refine ⟨?_, hlong⟩
    intro c hc
    rw [← (Numeral.normalizeChar_of_isDigit (h.2 c hc)).1]
    exact hdigits _ (List.mem_map_of_mem hc)
  · rintro ⟨hdecimal, hlong⟩
    refine ⟨fun hnil => h.1 (List.map_eq_nil_iff.1 hnil), ?_, hlong⟩
    intro c hc
    obtain ⟨d, hd, rfl⟩ := List.mem_map.1 hc
    rw [(Numeral.normalizeChar_of_isDigit (h.2 d hd)).1]
    exact hdecimal d hd

/-- A text that denotes no integer is refused as a value, for whatever reason. -/
theorem Json.family_of_integerOfText {s : String} {e : Error} (h : integerOfText s = .error e) :
    e.family = "ValueError" := by
  unfold integerOfText at h
  split at h <;> cases h <;> rfl

end Pubsub
