import Mathlib.Data.List.Basic
import Pubsub.Proofs.Addresses

/-!
# The signed text of a publish is unambiguous

A signature is taken of the keys, the channel and the serialized message, with slashes between them.
Channels may hold slashes, and so may the messages; the text could be cut at another slash, into a
longer channel and a shorter message. What stands after a cut inside of a message is never the text
of a value, though. In the text of a value a slash occurs only between quotes, so the quotes after
the cut would have to be closed from outside and from inside at once; and two readers that begin on
different sides of a quote stay on different sides to the end, unless there is a backslash, which
one of them meets outside of all quotes.

`QuoteSide.scan` reads a text in this way. It refuses the signs that the text of a value has between
quotes only, and this is all that has to be known of such texts.
-/

namespace Pubsub

/-! ## Between quotes, and not -/

/-- Where a reader of the text of a value stands. -/
inductive QuoteSide where
  | outside
  | inside
  /-- Between quotes, and just after a backslash. -/
  | escaping
deriving DecidableEq, Repr

namespace QuoteSide

/-- Where the reader stands after one more character. Outside of quotes there are neither slashes
nor backslashes. -/
def next? : QuoteSide → Char → Option QuoteSide
  | outside, c =>
    if c = '"' then some inside else if c = '\\' ∨ c = '/' then none else some outside
  | inside, c =>
    if c = '"' then some outside else if c = '\\' then some escaping else some inside
  | escaping, _ => some inside

/-- Where the reader stands after a text. -/
def scan (side : QuoteSide) (s : List Char) : Option QuoteSide := s.foldlM next? side

@[simp] theorem scan_nil (side : QuoteSide) : side.scan [] = some side := rfl

theorem scan_cons (side : QuoteSide) (c : Char) (s : List Char) :
    side.scan (c :: s) = (side.next? c).bind fun side => side.scan s := rfl

theorem scan_append (side : QuoteSide) (s t : List Char) :
    side.scan (s ++ t) = (side.scan s).bind fun side => side.scan t :=
  List.foldlM_append

/-- Two readers stand on different sides of a quote. -/
inductive Opposed : QuoteSide → QuoteSide → Prop where
  | outside : Opposed outside inside
  | inside : Opposed inside outside

variable {a b a' b' : QuoteSide} {c : Char} {s : List Char}

theorem Opposed.symm (h : Opposed a b) : Opposed b a := by
  cases h with
  | outside => exact .inside
  | inside => exact .outside

/-- A quote takes both readers to the other side. What else takes the one who is outside a step
further is no backslash, and takes neither to the other side. -/
theorem opposed_of_next? (ha : outside.next? c = some a') (hb : inside.next? c = some b') :
    Opposed a' b' := by
  simp only [QuoteSide.next?] at ha hb
  by_cases hquote : c = '"'
  · rw [if_pos hquote] at ha hb
    cases ha
    cases hb
    exact .inside
  · rw [if_neg hquote] at ha hb
    by_cases hslash : c = '\\' ∨ c = '/'
    · rw [if_pos hslash] at ha
      cases ha
    · rw [if_neg hslash] at ha
      rw [if_neg fun h => hslash (.inl h)] at hb
      cases ha
      cases hb
      exact .outside

theorem Opposed.next? (h : Opposed a b) (ha : a.next? c = some a') (hb : b.next? c = some b') :
    Opposed a' b' := by
  cases h with
  | outside => exact opposed_of_next? ha hb
  | inside => exact (opposed_of_next? hb ha).symm

/-- **Readers on different sides of a quote stay on different sides.** -/
theorem Opposed.scan (h : Opposed a b) (ha : a.scan s = some a') (hb : b.scan s = some b') :
    Opposed a' b' := by
  induction s generalizing a b with
  | nil =>
    cases ha
    cases hb
    exact h
  | cons c s ih =>
    rw [scan_cons] at ha hb
    obtain ⟨a₁, ha₁, ha⟩ := Option.bind_eq_some_iff.1 ha
    obtain ⟨b₁, hb₁, hb⟩ := Option.bind_eq_some_iff.1 hb
    exact ih (h.next? ha₁ hb₁) ha hb

/-- A slash is passed between quotes only. -/
theorem eq_inside_of_next?_slash (h : a.next? '/' = some b) : b = inside := by
  cases a <;> cases h <;> rfl

end QuoteSide

/-- Read from outside of quotes, the text ends outside of quotes. -/
def ClosesQuotes (s : List Char) : Prop := QuoteSide.outside.scan s = some .outside

namespace ClosesQuotes

variable {s t : List Char} {c : Char}

theorem nil : ClosesQuotes [] := rfl

theorem append (hs : ClosesQuotes s) (ht : ClosesQuotes t) : ClosesQuotes (s ++ t) := by
  unfold ClosesQuotes
  rw [QuoteSide.scan_append, hs]
  exact ht

/-- The character has no meaning for a reader that looks for quotes. -/
def IsOrdinary (c : Char) : Prop := c ≠ '"' ∧ c ≠ '\\' ∧ c ≠ '/'

instance : DecidablePred IsOrdinary := fun _ => inferInstanceAs (Decidable (_ ∧ _ ∧ _))

theorem cons (hc : IsOrdinary c) (hs : ClosesQuotes s) : ClosesQuotes (c :: s) := by
  have hnext : QuoteSide.outside.next? c = some .outside := by
    simp [QuoteSide.next?, hc.1, hc.2.1, hc.2.2]
  unfold ClosesQuotes
  rw [QuoteSide.scan_cons, hnext]
  exact hs

theorem of_forall_isOrdinary (h : ∀ c ∈ s, IsOrdinary c) : ClosesQuotes s := by
  induction s with
  | nil => exact .nil
  | cons c s ih =>
    exact .cons (h c List.mem_cons_self) (ih fun d hd => h d (List.mem_cons_of_mem c hd))

/-- **What stands after a slash in a closed text is not closed.** -/
theorem not_after_slash (h : ClosesQuotes (s ++ '/' :: t)) : ¬ ClosesQuotes t := by
  intro ht
  unfold ClosesQuotes at h
  rw [QuoteSide.scan_append] at h
  obtain ⟨side, -, h⟩ := Option.bind_eq_some_iff.1 h
  rw [QuoteSide.scan_cons] at h
  obtain ⟨after, hafter, h⟩ := Option.bind_eq_some_iff.1 h
  obtain rfl := QuoteSide.eq_inside_of_next?_slash hafter
  cases QuoteSide.Opposed.outside.scan ht h

/-- **A closed text in front of which a slash was put is cut off at no other slash.** -/
theorem eq_of_append_slash_eq {x y : List Char} (hs : ClosesQuotes s) (ht : ClosesQuotes t)
    (h : x ++ '/' :: s = y ++ '/' :: t) : x = y ∧ s = t := by
  have hcut {u v w : List Char} (hu : ClosesQuotes u) (hv : ClosesQuotes v)
      (heq : '/' :: u = w ++ '/' :: v) : w = [] := by
    cases w with
    | nil => rfl
    | cons c w =>
      obtain ⟨-, rfl⟩ := List.cons_eq_cons.1 heq
      exact absurd hv (not_after_slash hu)
  rcases List.append_eq_append_iff.1 h with ⟨between, rfl, heq⟩ | ⟨between, rfl, heq⟩
  · obtain rfl := hcut hs ht heq
    simpa using heq
  · obtain rfl := hcut ht hs heq
    simpa using heq.symm

end ClosesQuotes

/-! ## The texts of values -/

open ClosesQuotes (IsOrdinary)

theorem isOrdinary_of_isDigit {c : Char} (h : c.isDigit = true) : IsOrdinary c := by
  refine ⟨?_, ?_, ?_⟩ <;> rintro rfl <;> cases h

theorem isOrdinary_toDigits (n : Nat) : ∀ c ∈ Nat.toDigits 10 n, IsOrdinary c := fun _ h =>
  isOrdinary_of_isDigit (Nat.isDigit_of_mem_toDigits (by decide) (by decide) h)

theorem isOrdinary_zeros (n : Nat) : ∀ c ∈ List.replicate n '0', IsOrdinary c := by
  intro c h
  obtain rfl := (List.mem_replicate.1 h).2
  decide

theorem isOrdinary_exponentText (style : FloatStyle) (e : Int) :
    ∀ c ∈ style.exponentText e, IsOrdinary c := by
  have hsign : ∀ c ∈ (if e < 0 then ['-'] else if style.signedExponent then ['+'] else []),
      IsOrdinary c := by
    split_ifs <;> simp [IsOrdinary]
  unfold FloatStyle.exponentText
  dsimp only
  simp only [List.cons_append, List.forall_mem_cons, List.forall_mem_append]
  exact ⟨by decide, ⟨hsign, isOrdinary_zeros _⟩, isOrdinary_toDigits _⟩

theorem isOrdinary_decimalText (style : FloatStyle) (x : Decimal) :
    ∀ c ∈ style.decimalText x, IsOrdinary c := by
  have hdigits := isOrdinary_toDigits x.digits
  have htake (n : Nat) : ∀ c ∈ (Nat.toDigits 10 x.digits).take n, IsOrdinary c :=
    fun c hc => hdigits c (List.mem_of_mem_take hc)
  have hdrop (n : Nat) : ∀ c ∈ (Nat.toDigits 10 x.digits).drop n, IsOrdinary c :=
    fun c hc => hdigits c (List.mem_of_mem_drop hc)
  have hpoint {s : List Char} (hs : ∀ c ∈ s, IsOrdinary c) : ∀ c ∈ '.' :: s, IsOrdinary c :=
    List.forall_mem_cons.2 ⟨by decide, hs⟩
  unfold FloatStyle.decimalText
  dsimp only
  split_ifs
  all_goals simp only [List.forall_mem_append]
  · exact ⟨⟨by simp [IsOrdinary], isOrdinary_zeros _⟩, hdigits⟩
  · exact ⟨⟨hdigits, isOrdinary_zeros _⟩, by simp [IsOrdinary]⟩
  · exact ⟨htake _, hpoint (hdrop _)⟩
  · exact ⟨⟨htake _, by simp⟩, isOrdinary_exponentText style _⟩
  · exact ⟨⟨htake _, hpoint (hdrop _)⟩, isOrdinary_exponentText style _⟩

/-- The text of a double is closed, since it has no quotes at all. -/
theorem closesQuotes_text (style : FloatStyle) (x : Binary64) : ClosesQuotes (style.text x) := by
  refine .of_forall_isOrdinary ?_
  have hsign (negative : Bool) : ∀ c ∈ (if negative then ['-'] else []), IsOrdinary c := by
    cases negative <;> simp [IsOrdinary]
  cases x with
  | nan => exact show ∀ c ∈ ['n', 'a', 'n'], IsOrdinary c by simp [IsOrdinary]
  | infinity negative =>
    cases negative
    · exact show ∀ c ∈ ['i', 'n', 'f'], IsOrdinary c by simp [IsOrdinary]
    · exact show ∀ c ∈ ['-', 'i', 'n', 'f'], IsOrdinary c by simp [IsOrdinary]
  | finite negative m hm =>
    show ∀ c ∈ (if m = 0 then _ else _), IsOrdinary c
    split
    · exact List.forall_mem_append.2 ⟨hsign negative, by simp [IsOrdinary]⟩
    · exact List.forall_mem_append.2 ⟨hsign negative, isOrdinary_decimalText style _⟩

namespace Json

theorem closesQuotes_integerText (n : Int) : ClosesQuotes (integerText n) := by
  have hdigits := ClosesQuotes.of_forall_isOrdinary (isOrdinary_toDigits n.natAbs)
  unfold integerText
  split
  · exact .cons (by decide) hdigits
  · exact hdigits

theorem scan_controlEscape : ∀ n < 32,
    QuoteSide.inside.scan ['\\', 'u', '0', '0', hexDigit (n / 16), hexDigit (n % 16)]
      = some .inside := by
  decide

/-- Between quotes an escaped character leaves a reader between quotes. -/
theorem scan_escape (c : Char) : QuoteSide.inside.scan (escape c) = some .inside := by
  unfold escape
  split_ifs with hquote hslash _ _ _ _ _ hcontrol
  all_goals try rfl
  · exact scan_controlEscape c.toNat hcontrol
  · rw [QuoteSide.scan_cons, QuoteSide.next?, if_neg hquote, if_neg hslash]
    rfl

theorem scan_flatMap_escape (s : List Char) :
    QuoteSide.inside.scan (s.flatMap escape) = some .inside := by
  induction s with
  | nil => rfl
  | cons c s ih =>
    rw [List.flatMap_cons, QuoteSide.scan_append, scan_escape]
    exact ih

theorem closesQuotes_quoted (s : String) : ClosesQuotes (quoted s) := by
  have hopen : QuoteSide.outside.next? '"' = some .inside := rfl
  unfold ClosesQuotes quoted
  rw [List.cons_append, QuoteSide.scan_cons, hopen, Option.bind_some, QuoteSide.scan_append,
    scan_flatMap_escape]
  rfl

mutual

/-- **The text of a value closes its quotes.** -/
theorem closesQuotes_chars : (value : Json) → ClosesQuotes value.chars
  | null => show ClosesQuotes ['n', 'u', 'l', 'l'] from rfl
  | bool true => show ClosesQuotes ['t', 'r', 'u', 'e'] from rfl
  | bool false => show ClosesQuotes ['f', 'a', 'l', 's', 'e'] from rfl
  | int n => by
    rw [chars]
    exact closesQuotes_integerText n
  | float x => by
    rw [chars, doubleText]
    split
    · exact closesQuotes_text .wire x
    · exact show ClosesQuotes ['n', 'u', 'l', 'l'] from rfl
  | str s => by
    rw [chars]
    exact closesQuotes_quoted s
  | arr items => by
    rw [chars]
    exact .cons (by decide) ((closesQuotes_charsOfItems items).append rfl)
  | obj fields => by
    rw [chars]
    exact .cons (by decide) ((closesQuotes_charsOfFields fields).append rfl)

theorem closesQuotes_charsOfItems : (items : List Json) → ClosesQuotes (charsOfItems items)
  | [] => .nil
  | [item] => closesQuotes_chars item
  | item :: next :: rest =>
    (closesQuotes_chars item).append
      (.cons (by decide) (closesQuotes_charsOfItems (next :: rest)))

theorem closesQuotes_charsOfFields :
    (fields : List (String × Json)) → ClosesQuotes (charsOfFields fields)
  | [] => .nil
  | [(key, value)] =>
    (closesQuotes_quoted key).append (.cons (by decide) (closesQuotes_chars value))
  | (key, value) :: next :: rest =>
    ((closesQuotes_quoted key).append (.cons (by decide) (closesQuotes_chars value))).append
      (.cons (by decide) (closesQuotes_charsOfFields (next :: rest)))

end

/-- What a value is written as closes its quotes. -/
theorem closesQuotes_of_encode {value : Json} {s : String} (h : value.encode = .ok s) :
    ClosesQuotes s.toList := by
  unfold encode at h
  split at h
  · cases h
  · split at h
    · cases h
      rw [text, String.toList_ofList]
      exact closesQuotes_chars value
    · cases h

end Json

/-! ## Publishes -/

/-- What a message is sent as closes its quotes, whether it is encrypted or not. -/
theorem Profile.Serializes.closesQuotes {p : Profile} {fresh : Bytes} {message : Json}
    {serialized : String} (h : p.Serializes fresh message serialized) :
    ClosesQuotes serialized.toList := by
  unfold Profile.Serializes at h
  split at h
  · exact Json.closesQuotes_of_encode h
  · obtain ⟨text, -, h⟩ := h
    exact Json.closesQuotes_of_encode h

/-- The text that is signed ends in the channel, a slash and the message; what stands before them
depends on the keys alone. -/
theorem Scheme.toList_plaintext (scheme : Scheme) (publishKey subscribeKey secretKey : String) :
    ∃ before, ∀ channel message,
      (scheme.plaintext ⟨publishKey, subscribeKey, secretKey, channel, message⟩).toList
        = before ++ (channel.toList ++ '/' :: message.toList) := by
  let keys := publishKey.toList ++ '/' :: (subscribeKey.toList ++ ['/'])
  cases scheme with
  | md5 => exact ⟨keys ++ (secretKey.toList ++ ['/']), by simp [plaintext, keys]⟩
  | hmacSha256 => exact ⟨keys, by simp [plaintext, keys]⟩
  | bare => exact ⟨keys, by simp [plaintext, keys]⟩

variable {p p' : Profile} {fresh fresh' : Bytes} {channel channel' message message' : Json}
  {key key' name name' signature signature' serialized serialized' : String}

/-- **The signed text of a publish is unambiguous.** Let two publishes be built, on any channels and
of any messages, which are sent plain or encrypted. What is signed of a publish are the keys, its
channel and its serialized message; and under whatever keys, which are the same for both, the texts
that either scheme signs are different unless the channels are the same and the serialized messages
are the same. -/
theorem signed_text_unambiguous
    (h : Query.ofPublish p fresh channel message = .ok (.publish key name signature serialized))
    (h' : Query.ofPublish p' fresh' channel' message'
      = .ok (.publish key' name' signature' serialized')) :
    (∀ secretKey, p.secretKey = some secretKey →
      p.scheme.sign ⟨p.publishKey, p.subscribeKey, secretKey, name, serialized⟩ = .ok signature)
    ∧ ∀ (scheme : Scheme) (publishKey subscribeKey secretKey : String),
      scheme.plaintext ⟨publishKey, subscribeKey, secretKey, name, serialized⟩
          = scheme.plaintext ⟨publishKey, subscribeKey, secretKey, name', serialized'⟩
        ↔ name = name' ∧ serialized = serialized' := by
  obtain ⟨-, _, _, _, -, hserializes, hsigns, heq⟩ := Query.ofPublish_eq_ok_iff.1 h
  obtain ⟨-, _, _, _, -, hserializes', -, heq'⟩ := Query.ofPublish_eq_ok_iff.1 h'
  obtain ⟨-, rfl, rfl, rfl⟩ := Query.publish.inj heq
  obtain ⟨-, rfl, rfl, rfl⟩ := Query.publish.inj heq'
  refine ⟨?_, ?_⟩
  · intro secretKey hsecret
    rw [Profile.Signs, hsecret] at hsigns
    exact hsigns
  · intro scheme publishKey subscribeKey secretKey
    constructor
    · intro hplain
      obtain ⟨before, hbefore⟩ := scheme.toList_plaintext publishKey subscribeKey secretKey
      have hlist := congrArg String.toList hplain
      rw [hbefore, hbefore] at hlist
      obtain ⟨hname, hserialized⟩ := ClosesQuotes.eq_of_append_slash_eq hserializes.closesQuotes
        hserializes'.closesQuotes (List.append_cancel_left hlist)
      exact ⟨String.toList_inj.1 hname, String.toList_inj.1 hserialized⟩
    · rintro ⟨rfl, rfl⟩
      rfl

/-- A profile that signs its publishes. -/
def signingProfile : Profile := ⟨"pub", "sub", some "sec", .md5, none, "http://o", "me"⟩

/-- A message with a slash between quotes is told from a shorter message on a channel that takes in
what stands before the slash. -/
theorem signed_text_unambiguous_slashes :
    ∃ signature signature',
      Query.ofPublish signingProfile [] (.str "a") (.arr [.str "b/c", .str "d"])
        = .ok (.publish "pub" "a" signature "[\"b/c\",\"d\"]")
      ∧ Query.ofPublish signingProfile [] (.str "a/[\"b") (.str "c\",\"d\"]")
        = .ok (.publish "pub" "a/[\"b" signature' "\"c\\\",\\\"d\\\"]\"")
      ∧ Scheme.md5.sign ⟨"pub", "sub", "sec", "a", "[\"b/c\",\"d\"]"⟩ = .ok signature
      ∧ Scheme.md5.plaintext ⟨"pub", "sub", "sec", "a", "[\"b/c\",\"d\"]"⟩
        ≠ Scheme.md5.plaintext
          ⟨"pub", "sub", "sec", "a/[\"b", "\"c\\\",\\\"d\\\"]\""⟩ := by
  have hencode : (Json.arr [.str "b/c", .str "d"]).encode = .ok "[\"b/c\",\"d\"]" := by
    decide +kernel
  have hencode' : (Json.str "c\",\"d\"]").encode = .ok "\"c\\\",\\\"d\\\"]\"" := by
    decide +kernel
  have hbuilt (name : String) {serialized : String} {message : Json}
      (hname : IsChannelName name) (hm : message.encode = .ok serialized) :
      ∃ signature, Query.ofPublish signingProfile [] (.str name) message
        = .ok (.publish "pub" name signature serialized) :=
    ⟨_, Query.ofPublish_eq_ok_iff.2 ⟨by decide, name, serialized, _,
      checkChannel_of_isChannelName hname, hm, rfl, rfl⟩⟩
  obtain ⟨signature, h⟩ := hbuilt "a" ⟨by decide, by decide +kernel⟩ hencode
  obtain ⟨signature', h'⟩ := hbuilt "a/[\"b" ⟨by decide, by decide +kernel⟩ hencode'
  obtain ⟨hsigned, hplain⟩ := signed_text_unambiguous h h'
  refine ⟨signature, signature', h, h', hsigned "sec" rfl, fun heq => ?_⟩
  have hname := ((hplain .md5 "pub" "sub" "sec").1 heq).1
  revert hname
  decide +kernel

end Pubsub
