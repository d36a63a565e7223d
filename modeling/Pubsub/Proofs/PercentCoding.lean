import Pubsub.Wire.Percent

/-!
# Coded texts are read back

A segment of a path and a field of a query are coded differently, and each is read back by the
decoder of its own kind as exactly the text it was. What makes an address take apart again is that
a coded text contains none of the signs that separate its parts: `Percent.IsPlain` says which
characters can occur in it, and no separator is one of them.

Cutting at separators is the standard library's `List.splitOn`, so the pieces that were joined are
the pieces that are found, as long as no piece contains the separator.
-/

namespace Pubsub

/-! ## Cutting at separators -/

namespace Form

/-- Cutting a text at every occurrence of a separator is what the standard library does. -/
theorem splitAt_eq_splitOn (separator : Char) (s : List Char) :
    splitAt separator s = s.splitOn separator := by
  induction s with
  | nil => rfl
  | cons c rest ih =>
    have hcons : (c :: rest).splitOn separator
        = if c == separator then [] :: rest.splitOn separator
          else (rest.splitOn separator).modifyHead (List.cons c) :=
      List.splitOnP_cons_eq_if_modifyHead c rest
    rw [splitAt, ih, hcons]
    by_cases hc : c = separator
    · simp [hc]
    · cases hs : rest.splitOn separator with
      | nil => exact absurd hs (List.splitOnP_ne_nil _ _)
      | cons piece pieces => simp [hc]

/-- **Joined pieces are found again**, if there is a piece at all and none contains the
separator. -/
theorem splitAt_intercalate {separator : Char} {pieces : List (List Char)} (hne : pieces ≠ [])
    (h : ∀ piece ∈ pieces, separator ∉ piece) :
    splitAt separator ([separator].intercalate pieces) = pieces := by
  rw [splitAt_eq_splitOn, List.splitOn_intercalate separator h hne]

end Form

/-! ## Bytes -/

/-- What holds of the bytes up to 255 by inspection holds of all bytes. -/
theorem forall_uint8 {P : UInt8 → Prop} (h : ∀ n < 256, P (UInt8.ofNat n)) (b : UInt8) : P b := by
  have hb := h b.toNat b.toNat_lt
  rwa [UInt8.ofNat_toNat] at hb

namespace Percent

/-- Can the character occur in a coded segment? -/
def IsPlain (c : Char) : Prop :=
  c = '%' ∨ c.toNat < 128 ∧ isUnreserved (UInt8.ofNat c.toNat) = true

/-- A byte that stands for itself is an ASCII character, and not the sign of an escape. -/
theorem utf8EncodeChar_of_isUnreserved : ∀ b : UInt8, isUnreserved b = true →
    Char.ofNat b.toNat ≠ '%' ∧ (Char.ofNat b.toNat).toNat = b.toNat ∧ b.toNat < 128
    ∧ String.utf8EncodeChar (Char.ofNat b.toNat) = [b] :=
  forall_uint8 (by decide +kernel)

theorem hexValue?_hexDigit : ∀ n < 16, hexValue? (hexDigit n) = some n := by decide

/-- A digit of an escape can occur in a coded segment. -/
theorem isPlain_hexDigit : ∀ n < 16, (hexDigit n).toNat < 128
    ∧ isUnreserved (UInt8.ofNat (hexDigit n).toNat) = true := by
  decide

/-- A coded byte is read back in front of whatever follows it. -/
theorem decodeBytes?_encodeByte (b : UInt8) (rest : List Char) :
    decodeBytes? (encodeByte b ++ rest) = (decodeBytes? rest).map (b :: ·) := by
  unfold encodeByte
  by_cases hb : isUnreserved b = true
  · obtain ⟨hc, -, -, hbytes⟩ := utf8EncodeChar_of_isUnreserved b hb
    rw [if_pos hb]
    show decodeBytes? (Char.ofNat b.toNat :: rest) = _
    rw [decodeBytes?, hbytes]
    · rfl
    · intro h l tail hsign
      exact absurd hsign hc
    · exact hc
  · have hhigh := hexValue?_hexDigit (b.toNat / 16) (by have := b.toNat_lt; omega)
    have hlow := hexValue?_hexDigit (b.toNat % 16) (by omega)
    rw [if_neg hb]
    show decodeBytes? ('%' :: hexDigit (b.toNat / 16) :: hexDigit (b.toNat % 16) :: rest) = _
    rw [decodeBytes?, hhigh, hlow, Option.bind_eq_bind, Option.bind_some, Option.bind_eq_bind,
      Option.bind_some, Nat.div_add_mod', UInt8.ofNat_toNat]
    cases decodeBytes? rest <;> rfl

/-- **The bytes of a coded text are read back.** -/
theorem decodeBytes?_flatMap (bytes : Bytes) (rest : List Char) :
    decodeBytes? (bytes.flatMap encodeByte ++ rest) = (decodeBytes? rest).map (bytes ++ ·) := by
  induction bytes with
  | nil => simp
  | cons b tail ih =>
    rw [List.flatMap_cons, List.append_assoc, decodeBytes?_encodeByte, ih, Option.map_map]
    rfl

/-- **A coded segment reads back as its text.** -/
theorem decode?_encode (s : String) : decode? (encode s) = some s := by
  have hbytes : decodeBytes? ((utf8Bytes s).flatMap encodeByte) = some (utf8Bytes s) := by
    simpa [decodeBytes?] using decodeBytes?_flatMap (utf8Bytes s) []
  simp [decode?, encode, hbytes, ofUtf8?_utf8Bytes]

theorem isPlain_of_mem_encodeByte {b : UInt8} {c : Char} (h : c ∈ encodeByte b) : IsPlain c := by
  unfold encodeByte at h
  by_cases hb : isUnreserved b = true
  · obtain ⟨-, hnat, hlt, -⟩ := utf8EncodeChar_of_isUnreserved b hb
    rw [if_pos hb, List.mem_singleton] at h
    subst h
    refine Or.inr ⟨?_, ?_⟩
    · rwa [hnat]
    · rwa [hnat, UInt8.ofNat_toNat]
  · rw [if_neg hb] at h
    simp only [escape, List.mem_cons, List.not_mem_nil, or_false] at h
    obtain rfl | rfl | rfl := h
    · exact Or.inl rfl
    · exact Or.inr (isPlain_hexDigit _ (by have := b.toNat_lt; omega))
    · exact Or.inr (isPlain_hexDigit _ (by omega))

/-- **A coded segment consists of plain characters.** -/
theorem isPlain_of_mem_encode {s : String} {c : Char} (h : c ∈ (encode s).toList) : IsPlain c := by
  rw [encode, String.toList_ofList, List.mem_flatMap] at h
  obtain ⟨b, -, hc⟩ := h
  exact isPlain_of_mem_encodeByte hc

/-- A character that is not plain, such as a separator, does not occur in a coded segment. -/
theorem not_mem_encode {c : Char} (hc : ¬ IsPlain c) (s : String) : c ∉ (encode s).toList :=
  fun h => hc (isPlain_of_mem_encode h)

theorem not_isPlain_separators : ∀ c ∈ ['/', ',', '?', '&', '=', '+', ' '], ¬ IsPlain c := by
  simp [IsPlain]
  decide

end Percent

/-! ## Fields of a query -/

namespace Form

/-- A plus sign stands for a space. -/
def unplus (c : Char) : Char := if c = '+' then ' ' else c

theorem unplus_of_isPlain {c : Char} (h : Percent.IsPlain c) : unplus c = c := by
  refine if_neg ?_
  rintro rfl
  exact Percent.not_isPlain_separators '+' (by decide) h

/-- A coded byte of a query is, after its plus signs are taken as spaces, read back in front of
whatever follows it. -/
theorem decodeBytes?_encodeByte (b : UInt8) (rest : List Char) :
    Percent.decodeBytes? ((encodeByte b).map unplus ++ rest)
      = (Percent.decodeBytes? rest).map (b :: ·) := by
  unfold encodeByte
  by_cases hb : b = 32
  · subst hb
    rfl
  · have hplain : (Percent.encodeByte b).map unplus = Percent.encodeByte b := by
      refine (List.map_congr_left fun c hc => ?_).trans (List.map_id _)
      exact unplus_of_isPlain (Percent.isPlain_of_mem_encodeByte hc)
    rw [if_neg hb, hplain, Percent.decodeBytes?_encodeByte]

/-- **A coded field reads back as its text.** -/
theorem decodeField?_encodeField (s : String) : decodeField? (encodeField s) = some s := by
  have hbytes : ∀ bytes : Bytes,
      Percent.decodeBytes? ((bytes.flatMap encodeByte).map unplus) = some bytes := by
    intro bytes
    induction bytes with
    | nil => rfl
    | cons b rest ih =>
      rw [List.flatMap_cons, List.map_append, decodeBytes?_encodeByte, ih]
      rfl
  have hunplus : (fun c : Char => if c = '+' then ' ' else c) = unplus := rfl
  simp [decodeField?, encodeField, hunplus, hbytes, ofUtf8?_utf8Bytes]

/-- A coded field consists of plain characters and plus signs. -/
theorem not_mem_encodeField {c : Char} (hc : ¬ Percent.IsPlain c) (hplus : c ≠ '+') (s : String) :
    c ∉ (encodeField s).toList := by
  rw [encodeField, String.toList_ofList, List.mem_flatMap]
  rintro ⟨b, -, hm⟩
  unfold encodeByte at hm
  by_cases hb : b = 32
  · rw [if_pos hb, List.mem_singleton] at hm
    exact hplus hm
  · rw [if_neg hb] at hm
    exact hc (Percent.isPlain_of_mem_encodeByte hm)

/-- A name and its value are found again on the two sides of the sign between them. -/
theorem splitAt_pair (name value : String) :
    splitAt '=' ((encodeField name).toList ++ '=' :: (encodeField value).toList)
      = [(encodeField name).toList, (encodeField value).toList] := by
  have hplain := Percent.not_isPlain_separators '=' (by decide)
  have hlist : (encodeField name).toList ++ '=' :: (encodeField value).toList
      = ['='].intercalate [(encodeField name).toList, (encodeField value).toList] := by
    simp
  rw [hlist]
  refine splitAt_intercalate (by simp) ?_
  simp [not_mem_encodeField hplain]

/-- **A query reads back as its names and values, in order.** -/
theorem decode?_encode {parameters : List (String × String)} (hne : parameters ≠ []) :
    decode? (encode parameters) = some parameters := by
  have hplain := Percent.not_isPlain_separators '&' (by decide)
  have hcut : splitAt '&' (encode parameters).toList
      = parameters.map fun p => (encodeField p.1).toList ++ '=' :: (encodeField p.2).toList := by
    have hlist : (encode parameters).toList = ['&'].intercalate
        (parameters.map fun p => (encodeField p.1).toList ++ '=' :: (encodeField p.2).toList) := by
      simp [encode, Function.comp_def]
    rw [hlist]
    refine splitAt_intercalate (by simpa using hne) ?_
    intro piece hm
    obtain ⟨p, -, rfl⟩ := List.mem_map.1 hm
    simp [not_mem_encodeField hplain]
  have hsome : parameters.mapM (fun p => some p) = some parameters := by
    simpa using List.mapM_pure (m := Option) (l := parameters) (f := id)
  rw [decode?, hcut, List.mapM_map]
  simpa [Function.comp_def, splitAt_pair, decodeField?_encodeField] using hsome

end Form

end Pubsub
