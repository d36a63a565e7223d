import Mathlib.Data.List.Infix
import Pubsub.Proofs.EncryptedMessages
import Pubsub.Proofs.SignedTexts

/-!
# A value is determined by its compact text

The compact text of a value is what is signed, encrypted and put into an address, so nothing of the
value may be lost in it, and there must be one such text only. That nothing is lost is the round
trip of values, and here it is put together with the two facts that make it count: a value within
the limits of the format always has a text, and a text has no room for variation, because there are
no blanks in it but those between quotes.

Where the quotes are is said by the reader that signed texts are read with (`QuoteSide.scan`). From
outside of quotes it comes to every sign of the grammar, and between quotes it stays until it meets
the quote that closes them, since every other quote is escaped (`scan_of_prefix`).
-/

namespace Pubsub

open ClosesQuotes (IsOrdinary)

/-! ## Texts without blanks -/

/-- The text closes its quotes, and outside of them it has no blanks. -/
structure IsCompact (s : List Char) : Prop where
  closes : ClosesQuotes s
  unspaced : ∀ before c after, s = before ++ c :: after →
    QuoteSide.outside.scan before = some .outside → isBlank c = false

namespace IsCompact

variable {s t : List Char} {c : Char}

theorem nil : IsCompact [] where
  closes := .nil
  unspaced before c after h := by simp at h

theorem append (hs : IsCompact s) (ht : IsCompact t) : IsCompact (s ++ t) where
  closes := hs.closes.append ht.closes
  unspaced before c after h hscan := by
    rcases List.append_eq_append_iff.1 h with ⟨between, rfl, hrest⟩ | ⟨between, hfront, hrest⟩
    · rw [QuoteSide.scan_append, hs.closes] at hscan
      exact ht.unspaced between c after hrest hscan
    · cases between with
      | nil =>
        rw [List.append_nil] at hfront
        subst hfront
        exact ht.unspaced [] c after hrest.symm rfl
      | cons d between =>
        obtain ⟨rfl, -⟩ := List.cons_eq_cons.1 hrest
        exact hs.unspaced before c between hfront hscan

/-- A sign that is neither blank nor of any meaning to a reader of quotes. -/
theorem singleton (hc : IsOrdinary c) (hb : isBlank c = false) : IsCompact [c] where
  closes := .cons hc .nil
  unspaced before d after h _ := by
    cases before with
    | nil =>
      obtain rfl := (List.cons_eq_cons.1 h).1
      exact hb
    | cons e before => simp at h

theorem cons (hc : IsOrdinary c) (hb : isBlank c = false) (hs : IsCompact s) : IsCompact (c :: s) :=
  (singleton hc hb).append hs

theorem of_forall (h : ∀ c ∈ s, IsOrdinary c ∧ isBlank c = false) : IsCompact s := by
  induction s with
  | nil => exact .nil
  | cons c s ih =>
    obtain ⟨hc, hb⟩ := h c List.mem_cons_self
    exact .cons hc hb (ih fun d hd => h d (List.mem_cons_of_mem c hd))

theorem of_all (h : (s.all fun c => decide (IsOrdinary c ∧ isBlank c = false)) = true) :
    IsCompact s :=
  of_forall fun c hc => of_decide_eq_true (List.all_eq_true.1 h c hc)

end IsCompact

/-! ## Quotes -/

/-- A reader who begins between quotes does not get out of them within the text. -/
def StaysInside (s : List Char) : Prop :=
  ∀ before ∈ s.inits, QuoteSide.inside.scan before ≠ some .outside

instance : DecidablePred StaysInside := fun _ => inferInstanceAs (Decidable (∀ _ ∈ _, _))

theorem staysInside_controlEscape : ∀ n < 32,
    StaysInside ['\\', 'u', '0', '0', Json.hexDigit (n / 16), Json.hexDigit (n % 16)] := by
  decide

/-- The one quote that an escaped character may have comes after a backslash. -/
theorem staysInside_escape (c : Char) : StaysInside (Json.escape c) := by
  unfold Json.escape
  split_ifs with hquote hslash _ _ _ _ _ hcontrol
  all_goals try decide
  · exact staysInside_controlEscape c.toNat hcontrol
  · have hnext : QuoteSide.inside.scan [c] = some .inside := by
      simp [QuoteSide.scan, QuoteSide.next?, hquote, hslash]
    simp [StaysInside, hnext]

theorem StaysInside.append {s t : List Char} (hs : StaysInside s)
    (hclosed : QuoteSide.inside.scan s = some .inside) (ht : StaysInside t) :
    StaysInside (s ++ t) := by
  intro before hbefore
  obtain ⟨after, h⟩ := (List.mem_inits _ _).1 hbefore
  rcases List.append_eq_append_iff.1 h with ⟨between, rfl, -⟩ | ⟨between, rfl, rfl⟩
  · exact hs before ((List.mem_inits _ _).2 (List.prefix_append _ _))
  · rw [QuoteSide.scan_append, hclosed]
    exact ht between ((List.mem_inits _ _).2 (List.prefix_append _ _))

/-- **What stands between quotes does not end before the quote that closes it.** -/
theorem staysInside_flatMap_escape (s : List Char) : StaysInside (s.flatMap Json.escape) := by
  induction s with
  | nil => decide
  | cons c s ih => exact (staysInside_escape c).append (Json.scan_escape c) ih

/-- A text between quotes is compact, whatever blanks are in it. -/
theorem isCompact_quoted (s : String) : IsCompact (Json.quoted s) where
  closes := Json.closesQuotes_quoted s
  unspaced before c after h hscan := by
    cases before with
    | nil =>
      obtain rfl := (List.cons_eq_cons.1 h).1
      decide
    | cons d before =>
      -- Behind the first quote the reader is outside again when the text is at its end.
      obtain ⟨rfl, htail⟩ := List.cons_eq_cons.1 h
      have hinside : QuoteSide.inside.scan before = some .outside := hscan
      refine absurd hinside ?_
      rcases List.append_eq_append_iff.1 htail with ⟨between, rfl, hrest⟩ | ⟨between, hfront, -⟩
      · have hlength : 1 = between.length + (after.length + 1) := by
          simpa using congrArg List.length hrest
        obtain rfl : between = [] := List.eq_nil_of_length_eq_zero (by omega)
        rw [List.append_nil]
        exact staysInside_flatMap_escape _ _ ((List.mem_inits _ _).2 (List.prefix_refl _))
      · exact staysInside_flatMap_escape _ _
          ((List.mem_inits _ _).2 (hfront ▸ List.prefix_append _ _))

/-! ## Values -/

/-- ASCII digits are no blanks. -/
theorem isBlank_of_isDigit_ascii {c : Char} (h : c.isDigit = true) : isBlank c = false := by
  have hapart : ∀ range ∈ blanks, range.2 < 48 ∨ 57 < range.1 := by decide
  have hcode : 48 ≤ c.toNat ∧ c.toNat ≤ 57 := Char.isDigit_iff_toNat.1 h
  refine Bool.eq_false_iff.2 fun hb => ?_
  obtain ⟨range, hr, hlo, hhi⟩ := inRanges_iff.1 hb
  have := hapart range hr
  omega

namespace Json

theorem isCompact_integerText (n : Int) : IsCompact (integerText n) := by
  have hdigits : IsCompact (Nat.toDigits 10 n.natAbs) := by
    refine .of_forall fun c hc => ?_
    have hdigit := Nat.isDigit_of_mem_toDigits (by decide) (by decide) hc
    exact ⟨isOrdinary_of_isDigit hdigit, isBlank_of_isDigit_ascii hdigit⟩
  unfold integerText
  split
  · exact .cons (by decide) (by decide) hdigits
  · exact hdigits

/-- Items are put together with commas, and no blanks. -/
theorem isCompact_charsOfItems {items : List Json} (h : ∀ item ∈ items, IsCompact item.chars) :
    IsCompact (charsOfItems items) := by
  induction items with
  | nil => exact .nil
  | cons item others ih =>
    have hitem := h item List.mem_cons_self
    cases others with
    | nil => exact hitem
    | cons next others =>
      have hothers := ih fun other hm => h other (List.mem_cons_of_mem item hm)
      exact hitem.append (.cons (by decide) (by decide) hothers)

/-- Fields are put together with colons and commas, and no blanks. -/
theorem isCompact_charsOfFields {fields : List (String × Json)}
    (h : ∀ field ∈ fields, IsCompact field.2.chars) : IsCompact (charsOfFields fields) := by
  induction fields with
  | nil => exact .nil
  | cons field others ih =>
    obtain ⟨key, value⟩ := field
    have hfield : IsCompact (quoted key ++ ':' :: value.chars) :=
      (isCompact_quoted key).append
        (.cons (by decide) (by decide) (h (key, value) List.mem_cons_self))
    cases others with
    | nil => exact hfield
    | cons next others =>
      have hothers := ih fun other hm => h other (List.mem_cons_of_mem _ hm)
      exact hfield.append (.cons (by decide) (by decide) hothers)

/-- **The text of a value has no blanks but those between quotes**, if the value has no doubles. -/
theorem IsExact.isCompact {v : Json} (h : v.IsExact) : IsCompact v.chars := by
  induction h with
  | null => exact show IsCompact ['n', 'u', 'l', 'l'] from .of_all (by decide)
  | bool b =>
    cases b
    · exact show IsCompact ['f', 'a', 'l', 's', 'e'] from .of_all (by decide)
    · exact show IsCompact ['t', 'r', 'u', 'e'] from .of_all (by decide)
  | int n =>
    rw [chars]
    exact isCompact_integerText n
  | str s =>
    rw [chars]
    exact isCompact_quoted s
  | arr _ ih =>
    rw [chars]
    exact .cons (by decide) (by decide)
      ((isCompact_charsOfItems ih).append (.singleton (by decide) (by decide)))
  | obj _ _ ih =>
    rw [chars]
    exact .cons (by decide) (by decide)
      ((isCompact_charsOfFields ih).append (.singleton (by decide) (by decide)))

/-- A value within the limits of the format is written. -/
theorem encode_eq_ok {v : Json} (hwire : v.hasWireIntegers = true) (hdepth : v.depth ≤ writeDepth) :
    v.encode = .ok v.text := by
  rw [encode, if_neg (Nat.not_lt.2 hdepth), if_pos hwire]

/-- Two values with the same text are the same. -/
theorem IsExact.eq_of_encode_eq {v w : Json} {s : String} (hv : v.IsExact) (hw : w.IsExact)
    (h : v.encode = .ok s) (h' : w.encode = .ok s) : v = w := by
  have hread := decode?_utf8Bytes_of_encode hv h
  rw [decode?_utf8Bytes_of_encode hw h'] at hread
  exact (Option.some.inj hread).symm

end Json

/-- What is read as a value is not empty. -/
theorem decodeContent_of_decode? {content : Bytes} {v : Json} (h : Json.decode? content = some v) :
    decodeContent content = .ok v := by
  have hne : content ≠ [] := by
    rintro rfl
    have hnone : Json.decode? [] = none := by decide +kernel
    rw [hnone] at h
    cases h
  simp [decodeContent, hne, h]

/-! ## What is sent -/

/-- The passphrase of a cipher, if there is one, was not empty. -/
def Profile.HasDerivedKey (p : Profile) : Prop :=
  ∀ cipher, p.cipher = some cipher →
    ∃ passphrase freshVector, Cipher.ofPassphrase passphrase freshVector = .ok cipher

/-- **Messages that are sent as the same text are the same**, with encryption or without, and
whatever vectors were drawn for them. -/
theorem Profile.Serializes.eq {p : Profile} {fresh fresh' : Bytes} {v w : Json}
    {serialized : String} (hkey : p.HasDerivedKey) (hfresh : fresh.length = 16)
    (hfresh' : fresh'.length = 16) (hv : v.IsExact) (hw : w.IsExact)
    (h : p.Serializes fresh v serialized) (h' : p.Serializes fresh' w serialized) : v = w := by
  unfold Profile.Serializes at h h'
  split at h
  · rename_i hcipher
    rw [hcipher] at h'
    exact hv.eq_of_encode_eq hw h h'
  · rename_i cipher hcipher
    obtain ⟨passphrase, freshVector, hpassphrase⟩ := hkey cipher hcipher
    have hlength := Cipher.length_key_of_ofPassphrase hpassphrase
    rw [hcipher] at h'
    obtain ⟨text, hencrypt, htext⟩ := h
    obtain ⟨text', hencrypt', htext'⟩ := h'
    obtain rfl := Json.str.inj ((Json.IsExact.str text).eq_of_encode_eq (.str text') htext htext')
    have hplain {fresh : Bytes} {u : Json} (hfresh : fresh.length = 16) (hu : u.IsExact)
        (hencrypt : cipher.encrypt fresh u = .ok text) : cipher.decrypt (.str text) = .ok u := by
      cases hencode : u.encode with
      | error e => simp [Cipher.encrypt, hencode, Except.mapError, bind, Except.bind] at hencrypt
      | ok plain =>
        obtain ⟨other, hother, hdecrypt⟩ := cipher.decrypt_encrypt hlength hfresh hu hencode
        rw [hencrypt] at hother
        obtain rfl := Except.ok.inj hother
        exact hdecrypt
    have hsame := hplain hfresh hv hencrypt
    rw [hplain hfresh' hw hencrypt'] at hsame
    exact (Except.ok.inj hsame).symm

/-- **The text of a value is faithful to it.** A value without doubles, whose objects repeat no key,
whose integers have 64 bits and that nests no deeper than 254, has a text, and

* its bytes are read back as the value, and so is a response that consists of them;
* there are no blanks in it but those between quotes;
* no other such value has the same text, and none is sent as the same text, be it as it is or
  encrypted. -/
theorem written_faithfully {v : Json} (h : v.IsExact) (hwire : v.hasWireIntegers = true)
    (hdepth : v.depth ≤ 254) :
    ∃ text, v.encode = .ok text ∧ Json.decode? (utf8Bytes text) = some v
      ∧ decodeContent (utf8Bytes text) = .ok v ∧ IsCompact text.toList
      ∧ (∀ w : Json, w.IsExact → w.encode = .ok text → w = v)
      ∧ ∀ (p : Profile) (fresh fresh' : Bytes) (w : Json) (serialized : String), p.HasDerivedKey →
        fresh.length = 16 → fresh'.length = 16 → w.IsExact → p.Serializes fresh v serialized →
        p.Serializes fresh' w serialized → w = v := by
  have hencode := Json.encode_eq_ok hwire hdepth
  have hread := Json.decode?_utf8Bytes_of_encode h hencode
  refine ⟨v.text, hencode, hread, decodeContent_of_decode? hread, ?_, ?_, ?_⟩
  · rw [Json.text, String.toList_ofList]
    exact h.isCompact
  · exact fun w hw hencode' => hw.eq_of_encode_eq h hencode' hencode
  · intro p fresh fresh' w serialized hkey hfresh hfresh' hw hs hs'
    exact hs'.eq hkey hfresh' hfresh hw h hs

/-- The integers at the two ends, a true that is no one, keys that are not in order, and a text with
every kind of escape. -/
def awkwardMessage : Json :=
  .obj [("z", .arr [.int (-9223372036854775808), .int 18446744073709551615, .bool true, .int 1]),
    ("", .str "\"\\/ \n\x01é\u2028"), ("a", .arr [.obj [], .null])]

theorem written_faithfully_awkward :
    awkwardMessage.IsExact ∧ awkwardMessage.hasWireIntegers = true ∧ awkwardMessage.depth ≤ 254
      ∧ ∃ text, awkwardMessage.encode = .ok text
        ∧ Json.decode? (utf8Bytes text) = some awkwardMessage ∧ IsCompact text.toList
        ∧ ' ' ∈ text.toList
        ∧ ∀ w : Json, w.IsExact → w.encode = .ok text → w = awkwardMessage := by
  have hexact : awkwardMessage.IsExact := by
    refine .obj (by decide) ?_
    simp only [List.forall_mem_cons, List.not_mem_nil, false_implies, implies_true, and_true]
    refine ⟨.arr ?_, .str _, .arr ?_⟩
    · simp [Json.IsExact.int, Json.IsExact.bool]
    · have hempty : (Json.obj []).IsExact := .obj .nil (by simp)
      simp [hempty, Json.IsExact.null]
  have hwire : awkwardMessage.hasWireIntegers = true := by decide +kernel
  have hdepth : awkwardMessage.depth ≤ 254 := by decide +kernel
  obtain ⟨text, hencode, hread, -, hcompact, hunique, -⟩ :=
    written_faithfully hexact hwire hdepth
  refine ⟨hexact, hwire, hdepth, text, hencode, hread, hcompact, ?_, hunique⟩
  obtain rfl := Except.ok.inj ((Json.encode_eq_ok hwire hdepth).symm.trans hencode)
  decide +kernel

end Pubsub
