import Mathlib.Data.List.Induction
import Mathlib.Data.List.Nodup
import Mathlib.Tactic.SplitIfs
import Pubsub.Json.Parser
import Pubsub.Json.Text
import Pubsub.Proofs.IntegerTexts

/-!
# The compact text of a value is read back

A value without doubles whose objects repeat no key is read back from its compact text, with the
fields of its objects in their order. Every reader is shown to take the text of what it reads off
the front of a longer text and to leave the rest. For a number this needs to know where it ends, and
in a compact text it ends with the text or before a comma, a bracket or a brace.
-/

namespace Pubsub

namespace Json

/-- The value has no doubles in it, and no object in it repeats a key. -/
inductive IsExact : Json → Prop where
  | null : IsExact null
  | bool (b : Bool) : IsExact (bool b)
  | int (n : Int) : IsExact (int n)
  | str (s : String) : IsExact (str s)
  | arr {items : List Json} (h : ∀ item ∈ items, item.IsExact) : IsExact (arr items)
  | obj {fields : List (String × Json)} (hkeys : (fields.map Prod.fst).Nodup)
      (h : ∀ field ∈ fields, field.2.IsExact) : IsExact (obj fields)

/-! ## Texts -/

/-- A character in front of what is read of a text. -/
def putFront (c : Char) (found : List Char × List Char) : List Char × List Char :=
  (c :: found.1, found.2)

variable {rest : List Char}

/-- A character that needs no escape is read as it is. -/
theorem readQuoted_plain {c : Char} (hquote : c ≠ '"') (hslash : c ≠ '\\')
    (hcontrol : 32 ≤ c.toNat) :
    readQuoted (c :: rest) = (readQuoted rest).map (putFront c) := by
  rw [readQuoted]
  · rw [if_neg (by simp [hslash, Nat.not_lt.2 hcontrol])]
    cases readQuoted rest <;> rfl
  all_goals simp [hquote, hslash]

/-- A backslash and a letter are read as the character that they stand for. -/
theorem readQuoted_letter {letter c : Char} (hu : letter ≠ 'u') (h : unescape? letter = some c) :
    readQuoted ('\\' :: letter :: rest) = (readQuoted rest).map (putFront c) := by
  rw [readQuoted]
  · rw [h]
    cases readQuoted rest <;> rfl
  all_goals simp [hu]

/-- Four hexadecimal digits are read as the character that they number, whatever follows. -/
theorem readQuoted_codeUnit {a b c d : Char} {n : Nat} (h : codeUnit? a b c d = some n)
    (hsmall : n < 0xD800) :
    readQuoted ('\\' :: 'u' :: a :: b :: c :: d :: rest)
      = (readQuoted rest).map (putFront (Char.ofNat n)) := by
  have hhigh : isHighSurrogate n = false := by
    simp [isHighSurrogate, Nat.not_le.2 hsmall]
  have hlow : isLowSurrogate n = false := by
    simp [isLowSurrogate]
    omega
  -- Another escape may follow, and is then looked at for the second half of a pair.
  by_cases hnext : ∃ a' b' c' d' others, rest = '\\' :: 'u' :: a' :: b' :: c' :: d' :: others
  · obtain ⟨a', b', c', d', others, rfl⟩ := hnext
    rw [readQuoted, h]
    simp [hhigh, hlow]
    cases readQuoted ('\\' :: 'u' :: a' :: b' :: c' :: d' :: others) <;> rfl
  · rw [readQuoted]
    · rw [h]
      simp [hhigh, hlow]
      cases readQuoted rest <;> rfl
    · intro a' b' c' d' others hrest
      exact hnext ⟨a', b', c', d', others, hrest⟩

theorem codeUnit?_hexDigit : ∀ n < 32,
    codeUnit? '0' '0' (hexDigit (n / 16)) (hexDigit (n % 16)) = some n := by
  decide

/-- **An escaped character is read as itself.** -/
theorem readQuoted_escape (c : Char) :
    readQuoted (escape c ++ rest) = (readQuoted rest).map (putFront c) := by
  have hcode : ∀ n, c.toNat = n → Char.ofNat n = c := by
    rintro n rfl
    exact Char.ofNat_toNat c
  unfold escape
  split_ifs with hquote hslash hline hreturn htab hback hform hcontrol
  · exact readQuoted_letter (by decide) (by rw [hquote]; rfl)
  · exact readQuoted_letter (by decide) (by rw [hslash]; rfl)
  · exact readQuoted_letter (by decide) (by rw [hline]; rfl)
  · exact readQuoted_letter (by decide) (by rw [hreturn]; rfl)
  · exact readQuoted_letter (by decide) (by rw [htab]; rfl)
  · exact readQuoted_letter (by decide) (by rw [← hcode 8 hback]; rfl)
  · exact readQuoted_letter (by decide) (by rw [← hcode 12 hform]; rfl)
  · refine (readQuoted_codeUnit (codeUnit?_hexDigit c.toNat hcontrol) (by omega)).trans ?_
    rw [Char.ofNat_toNat]
    rfl
  · exact readQuoted_plain hquote hslash (Nat.not_lt.1 hcontrol)

/-- **A text between quotes is read back.** -/
theorem readQuoted_flatMap_escape (s : List Char) :
    readQuoted (s.flatMap escape ++ '"' :: rest) = some (s, rest) := by
  induction s with
  | nil => exact readQuoted.eq_2 rest
  | cons c s ih =>
    rw [List.flatMap_cons, List.append_assoc, readQuoted_escape, ih]
    rfl

/-! ## Integers -/

/-- What may follow a value in a compact text: nothing, a comma, a bracket or a brace. -/
def Ends (rest : List Char) : Prop := ∀ c, rest.head? = some c → c ∈ [',', ']', '}']

@[simp] theorem ends_nil : Ends [] := by
  intro c h
  cases h

theorem ends_cons {c : Char} (h : c ∈ [',', ']', '}']) : Ends (c :: rest) := by
  intro d hd
  obtain rfl := Option.some.inj hd
  exact h

/-- Nothing that may follow a value can be taken for more of a number. -/
theorem Ends.cases (h : Ends rest) :
    rest = []
      ∨ ∃ c others, rest = c :: others ∧ c.isDigit = false ∧ c ≠ '.' ∧ c ≠ 'e' ∧ c ≠ 'E' := by
  cases rest with
  | nil => exact Or.inl rfl
  | cons c others =>
    have hsigns : ∀ d ∈ [',', ']', '}'], d.isDigit = false ∧ d ≠ '.' ∧ d ≠ 'e' ∧ d ≠ 'E' := by
      simp
    exact Or.inr ⟨c, others, rfl, hsigns c (h c rfl)⟩

theorem Ends.readFraction (h : Ends rest) : readFraction rest = ([], rest) := by
  obtain rfl | ⟨c, others, rfl, -, hpoint, -⟩ := h.cases
  · rfl
  · rw [Json.readFraction]
    simpa using hpoint

theorem Ends.readExponent (h : Ends rest) : readExponent rest = (none, rest) := by
  obtain rfl | ⟨c, others, rfl, -, -, he, hE⟩ := h.cases
  · rfl
  · rw [Json.readExponent, if_neg (by simp [he, hE])]

/-- The digits of a number are taken up to its end. -/
theorem Ends.span_digits (h : Ends rest) {digits : List Char}
    (hd : ∀ c ∈ digits, c.isDigit = true) :
    (digits ++ rest).takeWhile Char.isDigit = digits
      ∧ (digits ++ rest).dropWhile Char.isDigit = rest := by
  rw [List.takeWhile_append_of_pos hd, List.dropWhile_append_of_pos hd]
  obtain rfl | ⟨c, others, rfl, hc, -⟩ := h.cases
  · simp
  · simp [hc]

/-- Only the text of zero begins with a zero. -/
theorem head?_toDigits_ne {n : Nat} (h : 0 < n) : (Nat.toDigits 10 n).head? ≠ some '0' := by
  induction n using Nat.strongRecOn with
  | ind n ih =>
    by_cases hsmall : n < 10
    · have hdigits : ∀ m < 10, 0 < m → (some m.digitChar : Option Char) ≠ some '0' := by decide
      rw [Nat.toDigits_of_lt_base hsmall]
      exact hdigits n hsmall h
    · rw [Nat.toDigits_of_base_le (by decide) (Nat.not_lt.1 hsmall),
        List.head?_append_of_ne_nil _ Nat.toDigits_ne_nil]
      exact ih (n / 10) (by omega) (by omega)

/-- **The digits of a number are read back.** -/
theorem readUnsigned_toDigits {negative : Bool} {n : Nat} {value : Json}
    (hvalue : integerValue? negative n = some value) (h : Ends rest) :
    readUnsigned negative (Nat.toDigits 10 n ++ rest) = some (value, rest) := by
  have hdigits : ∀ c ∈ Nat.toDigits 10 n, c.isDigit = true := fun c hc =>
    Nat.isDigit_of_mem_toDigits (by decide) (by decide) hc
  have hnumber : digitsValue (Nat.toDigits 10 n) = n :=
    Nat.ofDigitChars_toDigits (by decide) (by decide)
  have hwhole : readWhole (Nat.toDigits 10 n ++ rest) = some (Nat.toDigits 10 n, rest) := by
    by_cases hzero : n = 0
    · subst hzero
      rfl
    · obtain ⟨htake, hdrop⟩ := h.span_digits hdigits
      have hhead := head?_toDigits_ne (Nat.pos_of_ne_zero hzero)
      unfold readWhole
      split
      · rename_i others heq
        have : (Nat.toDigits 10 n ++ rest).head? = some '0' := by rw [heq]; rfl
        rw [List.head?_append_of_ne_nil _ Nat.toDigits_ne_nil] at this
        exact absurd this hhead
      · simp [htake, hdrop, Nat.toDigits_ne_nil]
  simp [readUnsigned, hwhole, h.readFraction, h.readExponent, hnumber, hvalue]

theorem exists_toDigits_eq_cons (n : Nat) :
    ∃ c others, Nat.toDigits 10 n = c :: others ∧ c.isDigit = true := by
  obtain ⟨c, others, heq⟩ := List.exists_cons_of_ne_nil (Nat.toDigits_ne_nil (n := n) (b := 10))
  have hmem : c ∈ Nat.toDigits 10 n := heq ▸ List.mem_cons_self
  exact ⟨c, others, heq, Nat.isDigit_of_mem_toDigits (by decide) (by decide) hmem⟩

/-- The text of an integer begins with a sign or a digit. -/
theorem exists_integerText_eq_cons (n : Int) :
    ∃ c others, integerText n = c :: others ∧ ∀ other : Char, other ≠ '-' →
      other.isDigit = false → c ≠ other := by
  unfold integerText
  split
  · exact ⟨'-', _, rfl, fun other hother _ => Ne.symm hother⟩
  · obtain ⟨c, others, heq, hc⟩ := exists_toDigits_eq_cons n.natAbs
    exact ⟨c, others, heq, fun other _ hother => Numeral.ne_of_isDigit hc hother⟩

/-- **An integer of 64 bits is read back.** -/
theorem readScalar_integerText {n : Int} (hn : isWireInteger n = true) (h : Ends rest) :
    readScalar (integerText n ++ rest) = some (.int n, rest) := by
  have hvalue : ∀ negative, (if negative then -(n.natAbs : Int) else n.natAbs) = n →
      integerValue? negative n.natAbs = some (.int n) := by
    intro negative heq
    unfold integerValue?
    rw [heq]
    exact if_pos hn
  unfold integerText
  split
  · rename_i hneg
    rw [List.cons_append, readScalar]
    exact readUnsigned_toDigits (hvalue true (by show -(n.natAbs : Int) = n; omega)) h
  · rename_i hneg
    have hread := readUnsigned_toDigits (hvalue false (by show (n.natAbs : Int) = n; omega)) h
    obtain ⟨c, others, heq, hc⟩ := exists_toDigits_eq_cons n.natAbs
    rw [heq, List.cons_append] at hread ⊢
    -- A digit is none of the signs that other values begin with.
    rw [readScalar]
    · exact hread
    all_goals
      intro others' hcons
      cases hcons
      cases hc

/-! ## Lists and objects -/

/-- How the text of a value begins: not like a blank, and not like the end of a list. -/
def Begins (s : List Char) : Prop := ∃ c others, s = c :: others ∧ isSpace c = false ∧ c ≠ ']'

theorem Begins.skipSpace {s : List Char} (h : Begins s) : skipSpace (s ++ rest) = s ++ rest := by
  obtain ⟨c, others, rfl, hspace, -⟩ := h
  rw [Json.skipSpace, List.cons_append, List.dropWhile_cons_of_neg (by simp [hspace])]

/-- **The text of a value without doubles begins like one.** -/
theorem IsExact.begins {v : Json} (h : v.IsExact) : Begins v.chars := by
  cases h with
  | null => exact ⟨'n', _, rfl, rfl, by decide⟩
  | bool b =>
    cases b
    · exact ⟨'f', _, rfl, rfl, by decide⟩
    · exact ⟨'t', _, rfl, rfl, by decide⟩
  | int n =>
    obtain ⟨c, others, heq, hne⟩ := exists_integerText_eq_cons n
    have hspace : isSpace c = false := by
      simp [isSpace, hne ' ' (by decide) rfl, hne '\t' (by decide) rfl, hne '\n' (by decide) rfl,
        hne '\r' (by decide) rfl]
    exact ⟨c, others, heq, hspace, hne ']' (by decide) rfl⟩
  | str s => exact ⟨'"', _, by rw [chars, quoted]; rfl, rfl, by decide⟩
  | arr => exact ⟨'[', _, by rw [chars]; rfl, rfl, by decide⟩
  | obj => exact ⟨'{', _, by rw [chars]; rfl, rfl, by decide⟩

/-- A reader reads the value back from its text, whatever follows. -/
def ReadsBack (read : Reader Json) (v : Json) : Prop :=
  Begins v.chars ∧ ∀ rest, Ends rest → read (v.chars ++ rest) = some (v, rest)

variable {read : Reader Json} {fuel : Nat}

/-- **The items of a list are read back**, if each of them is. -/
theorem readItems_charsOfItems {items : List Json} (hne : items ≠ []) (hfuel : items.length ≤ fuel)
    (h : ∀ item ∈ items, ReadsBack read item) :
    readItems read fuel (charsOfItems items ++ ']' :: rest) = some (items, rest) := by
  induction items generalizing fuel with
  | nil => exact absurd rfl hne
  | cons item others ih =>
    obtain ⟨hbegins, hitem⟩ := h item List.mem_cons_self
    cases fuel with
    | zero => simp at hfuel
    | succ fuel =>
      cases others with
      | nil =>
        have hread := hitem (']' :: rest) (ends_cons (by simp))
        have hend : skipSpace (']' :: rest) = ']' :: rest := rfl
        simp [charsOfItems, readItems, hbegins.skipSpace, hread, hend]
      | cons next others =>
        have hless : (next :: others).length ≤ fuel := by simpa using hfuel
        have hothers := ih (by simp) hless fun item hm => h item (List.mem_cons_of_mem _ hm)
        have hread := hitem (',' :: (charsOfItems (next :: others) ++ ']' :: rest))
          (ends_cons (by simp))
        have hend : ∀ s, skipSpace (',' :: s) = ',' :: s := fun s => rfl
        simp [charsOfItems, readItems, hbegins.skipSpace, hread, hend, hothers]

/-- **The fields of an object are read back**, if the value of each of them is. -/
theorem readFields_charsOfFields {fields : List (String × Json)} (hne : fields ≠ [])
    (hfuel : fields.length ≤ fuel) (h : ∀ field ∈ fields, ReadsBack read field.2) :
    readFields read fuel (charsOfFields fields ++ '}' :: rest) = some (fields, rest) := by
  have hquote : ∀ s, skipSpace ('"' :: s) = '"' :: s := fun s => rfl
  have hcolon : ∀ s, skipSpace (':' :: s) = ':' :: s := fun s => rfl
  induction fields generalizing fuel with
  | nil => exact absurd rfl hne
  | cons field others ih =>
    obtain ⟨key, value⟩ := field
    obtain ⟨hbegins, hvalue⟩ := h (key, value) List.mem_cons_self
    cases fuel with
    | zero => simp at hfuel
    | succ fuel =>
      cases others with
      | nil =>
        have hread := hvalue ('}' :: rest) (ends_cons (by simp))
        have hend : skipSpace ('}' :: rest) = '}' :: rest := rfl
        simp [charsOfFields, readFields, quoted, hquote, hcolon, readQuoted_flatMap_escape,
          hbegins.skipSpace, hread, hend]
      | cons next others =>
        have hless : (next :: others).length ≤ fuel := by simpa using hfuel
        have hothers := ih (by simp) hless fun field hm => h field (List.mem_cons_of_mem _ hm)
        have hread := hvalue (',' :: (charsOfFields (next :: others) ++ '}' :: rest))
          (ends_cons (by simp))
        have hend : ∀ s, skipSpace (',' :: s) = ',' :: s := fun s => rfl
        simp [charsOfFields, readFields, quoted, hquote, hcolon, readQuoted_flatMap_escape,
          hbegins.skipSpace, hread, hend, hothers]

/-- Fields with different keys are left as they are when they are set one after the other. -/
theorem setField_of_not_mem {key : String} {value : Json} {fields : List (String × Json)}
    (h : key ∉ fields.map Prod.fst) : setField key value fields = fields ++ [(key, value)] := by
  induction fields with
  | nil => rfl
  | cons field others ih =>
    obtain ⟨k, v⟩ := field
    simp only [List.map_cons, List.mem_cons, not_or] at h
    rw [setField, if_neg (Ne.symm h.1), ih h.2]
    rfl

theorem ofSettings_of_nodup {fields : List (String × Json)} (h : (fields.map Prod.fst).Nodup) :
    ofSettings fields = fields := by
  induction fields using List.reverseRecOn with
  | nil => rfl
  | append_singleton fields field ih =>
    rw [List.map_append, List.nodup_append] at h
    have hlast : ofSettings (fields ++ [field]) = setField field.1 field.2 (ofSettings fields) := by
      simp [ofSettings]
    rw [hlast, ih h.1]
    exact setField_of_not_mem fun hm => h.2.2 field.1 hm field.1 (by simp) rfl

/-! ## Values -/

/-- What does not begin like a list or an object is read as neither. -/
theorem readValue_of_scalar {depth : Nat} {c : Char} (hlist : c ≠ '[') (hobject : c ≠ '{')
    (s : List Char) : readValue depth (c :: s) = readScalar (c :: s) := by
  cases depth <;> simp [readValue, hlist, hobject]

theorem itemsHaveWireIntegers_iff {items : List Json} :
    itemsHaveWireIntegers items = true ↔ ∀ item ∈ items, item.hasWireIntegers = true := by
  induction items with
  | nil => simp [itemsHaveWireIntegers]
  | cons item others ih => simp [itemsHaveWireIntegers, ih]

theorem fieldsHaveWireIntegers_iff {fields : List (String × Json)} :
    fieldsHaveWireIntegers fields = true ↔ ∀ field ∈ fields, field.2.hasWireIntegers = true := by
  induction fields with
  | nil => simp [fieldsHaveWireIntegers]
  | cons field others ih =>
    obtain ⟨key, value⟩ := field
    simp [fieldsHaveWireIntegers, ih]

theorem depth_le_depthOfItems {items : List Json} :
    ∀ item ∈ items, item.depth ≤ depthOfItems items := by
  induction items with
  | nil => simp
  | cons item others ih =>
    intro v hv
    rw [depthOfItems]
    obtain rfl | hv := List.mem_cons.1 hv
    · exact Nat.le_max_left _ _
    · exact Nat.le_trans (ih v hv) (Nat.le_max_right _ _)

theorem depth_le_depthOfFields {fields : List (String × Json)} :
    ∀ field ∈ fields, field.2.depth ≤ depthOfFields fields := by
  induction fields with
  | nil => simp
  | cons field others ih =>
    obtain ⟨key, value⟩ := field
    intro v hv
    rw [depthOfFields]
    obtain rfl | hv := List.mem_cons.1 hv
    · exact Nat.le_max_left _ _
    · exact Nat.le_trans (ih v hv) (Nat.le_max_right _ _)

theorem length_le_length_charsOfItems (items : List Json) :
    items.length ≤ (charsOfItems items).length + 1 := by
  induction items with
  | nil => simp
  | cons item others ih =>
    cases others with
    | nil => simp
    | cons next others =>
      simp [charsOfItems] at ih ⊢
      omega

theorem length_le_length_charsOfFields (fields : List (String × Json)) :
    fields.length ≤ (charsOfFields fields).length + 1 := by
  induction fields with
  | nil => simp
  | cons field others ih =>
    obtain ⟨key, value⟩ := field
    cases others with
    | nil => simp
    | cons next others =>
      simp [charsOfFields] at ih ⊢
      omega

/-- What follows an opening bracket and is not its end is read as items. -/
theorem readValue_bracket {below : Nat} {s : List Char} (h : Begins s) :
    readValue (below + 1) ('[' :: (s ++ rest))
      = (readItems (readValue below) ((s ++ rest).length + 1) (s ++ rest)).map
        fun (items, rest) => (.arr items, rest) := by
  have hskip : skipSpace (s ++ rest) = s ++ rest := h.skipSpace
  obtain ⟨c, others, rfl, -, hc⟩ := h
  rw [List.cons_append] at hskip ⊢
  simp [readValue, hskip, hc]

/-- What follows an opening brace and begins with a quote is read as fields. -/
theorem readValue_brace {below : Nat} (s : List Char) :
    readValue (below + 1) ('{' :: '"' :: s)
      = (readFields (readValue below) (('"' :: s).length + 1) ('"' :: s)).map
        fun (fields, rest) => (.obj (ofSettings fields), rest) := by
  have hskip : skipSpace ('"' :: s) = '"' :: s := rfl
  simp [readValue, hskip]

/-- **A list is read back**, if its items are with one level less to go. -/
theorem readValue_arr {below : Nat} {items : List Json}
    (h : ∀ item ∈ items, ReadsBack (readValue below) item) :
    readValue (below + 1) ((arr items).chars ++ rest) = some (arr items, rest) := by
  cases items with
  | nil => rfl
  | cons item others =>
    have hbegins : Begins (charsOfItems (item :: others)) := by
      obtain ⟨⟨c, more, heq, hc⟩, -⟩ := h item List.mem_cons_self
      cases others with
      | nil => exact ⟨c, more, heq, hc⟩
      | cons next others =>
        exact ⟨c, more ++ ',' :: charsOfItems (next :: others), by simp [charsOfItems, heq], hc⟩
    have hlength := length_le_length_charsOfItems (item :: others)
    have hfuel : (item :: others).length
        ≤ (charsOfItems (item :: others) ++ ']' :: rest).length + 1 := by
      rw [List.length_append]
      omega
    have hread : readItems (readValue below) _ (charsOfItems (item :: others) ++ ']' :: rest)
        = some (item :: others, rest) := readItems_charsOfItems (by simp) hfuel h
    have hchars : (arr (item :: others)).chars ++ rest
        = '[' :: (charsOfItems (item :: others) ++ ']' :: rest) := by
      simp [chars]
    rw [hchars, readValue_bracket hbegins, hread]
    rfl

/-- **An object is read back**, if its values are with one level less to go and its keys differ. -/
theorem readValue_obj {below : Nat} {fields : List (String × Json)}
    (hkeys : (fields.map Prod.fst).Nodup)
    (h : ∀ field ∈ fields, ReadsBack (readValue below) field.2) :
    readValue (below + 1) ((obj fields).chars ++ rest) = some (obj fields, rest) := by
  cases fields with
  | nil => rfl
  | cons field others =>
    obtain ⟨s, hquote⟩ : ∃ s, charsOfFields (field :: others) = '"' :: s := by
      cases others <;> simp [charsOfFields, quoted]
    have hlength := length_le_length_charsOfFields (field :: others)
    have hfuel : (field :: others).length
        ≤ (charsOfFields (field :: others) ++ '}' :: rest).length + 1 := by
      rw [List.length_append]
      omega
    have hread : readFields (readValue below) _ (charsOfFields (field :: others) ++ '}' :: rest)
        = some (field :: others, rest) := readFields_charsOfFields (by simp) hfuel h
    have hchars : (obj (field :: others)).chars ++ rest
        = '{' :: (charsOfFields (field :: others) ++ '}' :: rest) := by
      simp [chars]
    rw [hquote, List.cons_append] at hread
    have hsettings := ofSettings_of_nodup hkeys
    rw [hchars, hquote, List.cons_append, readValue_brace, hread]
    simp [hsettings]

/-- **Every value is read back from its text**, if it has no doubles and repeats no key, its
integers fit into 64 bits, and it nests no deeper than is read. -/
theorem IsExact.readsBack {v : Json} (h : v.IsExact) (hwire : v.hasWireIntegers = true)
    {depth : Nat} (hdepth : v.depth ≤ depth) : ReadsBack (readValue depth) v := by
  refine ⟨h.begins, ?_⟩
  induction h generalizing depth with
  | null =>
    intro rest _
    exact readValue_of_scalar (by decide) (by decide) _
  | bool b =>
    intro rest _
    cases b <;> exact readValue_of_scalar (by decide) (by decide) _
  | int n =>
    intro rest hends
    have hread := readScalar_integerText hwire hends
    obtain ⟨c, others, heq, hne⟩ := exists_integerText_eq_cons n
    rw [heq, List.cons_append] at hread
    rw [chars, heq, List.cons_append, readValue_of_scalar (hne '[' (by decide) rfl)
      (hne '{' (by decide) rfl), hread]
  | str s =>
    intro rest _
    have hread : readQuoted (s.toList.flatMap escape ++ '"' :: rest) = some (s.toList, rest) :=
      readQuoted_flatMap_escape s.toList
    have hchars : (Json.str s).chars ++ rest
        = '"' :: (s.toList.flatMap escape ++ '"' :: rest) := by
      simp [chars, quoted]
    rw [hchars, readValue_of_scalar (by decide) (by decide), readScalar, hread]
    simp
  | @arr items hitems ih =>
    intro rest _
    rw [Json.depth] at hdepth
    obtain ⟨below, rfl⟩ := Nat.exists_eq_add_one_of_ne_zero (n := depth) (by omega)
    refine readValue_arr fun item hm => ?_
    have hlow := depth_le_depthOfItems item hm
    refine ⟨(hitems item hm).begins, ih item hm ?_ (by omega)⟩
    exact itemsHaveWireIntegers_iff.1 hwire item hm
  | @obj fields hkeys hfields ih =>
    intro rest _
    rw [Json.depth] at hdepth
    obtain ⟨below, rfl⟩ := Nat.exists_eq_add_one_of_ne_zero (n := depth) (by omega)
    refine readValue_obj hkeys fun field hm => ?_
    have hlow := depth_le_depthOfFields field hm
    refine ⟨(hfields field hm).begins, ih field hm ?_ (by omega)⟩
    exact fieldsHaveWireIntegers_iff.1 hwire field hm

/-- **A value that can be written is read back from its bytes**, if it has no doubles and repeats
no key. -/
theorem decode?_utf8Bytes_of_encode {v : Json} {text : String} (h : v.IsExact)
    (he : v.encode = .ok text) : decode? (utf8Bytes text) = some v := by
  unfold encode at he
  split at he
  · cases he
  · rename_i hdepth
    split at he
    · rename_i hwire
      cases he
      have hless : writeDepth ≤ readDepth := by decide
      obtain ⟨hbegins, hread⟩ := h.readsBack hwire (show v.depth ≤ readDepth by omega)
      have hparse : parse? v.chars = some v := by
        have hskip : skipSpace (v.chars ++ []) = v.chars ++ [] := hbegins.skipSpace
        have hwhole := hread [] ends_nil
        rw [List.append_nil] at hskip hwhole
        have hend : skipSpace [] = [] := rfl
        simp [parse?, hskip, hwhole, hend]
      simp [decode?, ofUtf8?_utf8Bytes, Json.text, hparse]
    · cases he

end Json

end Pubsub
