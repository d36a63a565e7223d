import Pubsub.Proofs.Deliveries
import Pubsub.Proofs.PercentCoding

/-!
# Messages, channels and decryption stay aligned

A listener takes the messages of a result and their channels in pairs, so a list that is one short
would lose a message without a trace. Here the result of a subscription or a history is compared
with the body that it was read from, entry by entry: there is a message for each entry and, for a
subscription, a channel for each message, on every way in which a body says which channels these
are. What becomes of an entry is said by `Message.IsOf`, which mentions nothing but the entry, the
cipher, and whether records were asked for.

A body of another shape is malformed; nothing else can go wrong.
-/

namespace Pubsub

/-! ## The pieces of a text between commas -/

/-- These are the pieces of the text between its commas. There is always one. -/
structure IsCutAtCommas (s : String) (pieces : List String) : Prop where
  ne_nil : pieces ≠ []
  comma : ∀ piece ∈ pieces, ',' ∉ piece.toList
  joined : ",".intercalate pieces = s

/-- What is cut off at a separator does not contain it. -/
theorem Form.not_mem_of_mem_splitAt {separator : Char} {s : List Char} :
    ∀ piece ∈ splitAt separator s, separator ∉ piece := by
  induction s with
  | nil => simp [splitAt]
  | cons c rest ih =>
    rw [splitAt]
    split
    · exact List.forall_mem_cons.2 ⟨by simp, ih⟩
    · rename_i hc
      split
      · simpa using Ne.symm hc
      · rename_i piece pieces heq
        obtain ⟨hpiece, hpieces⟩ := List.forall_mem_cons.1 (heq ▸ ih)
        refine List.forall_mem_cons.2 ⟨?_, hpieces⟩
        simpa using ⟨Ne.symm hc, hpiece⟩

theorem Request.isCutAtCommas_splitCommas (s : String) : IsCutAtCommas s (splitCommas s) := by
  refine ⟨?_, ?_, ?_⟩
  · unfold splitCommas
    rw [Form.splitAt_eq_splitOn, ne_eq, List.map_eq_nil_iff]
    exact List.splitOnP_ne_nil _ _
  · intro piece hm
    obtain ⟨chars, hchars, rfl⟩ := List.mem_map.1 hm
    rw [String.toList_ofList]
    exact Form.not_mem_of_mem_splitAt chars hchars
  · have hjoined : [','].intercalate (Form.splitAt ',' s.toList) = s.toList := by
      rw [Form.splitAt_eq_splitOn]
      exact List.intercalate_splitOn ','
    refine String.toList_inj.1 ?_
    simpa [splitCommas, Function.comp_def] using hjoined

/-! ## Single entries -/

/-- What a value is handed on as: itself without a cipher, and with one what it was before it was
encrypted, or a failure that holds it. -/
inductive Delivered.IsOf : Option Cipher → Json → Delivered → Prop where
  | plain (value : Json) : IsOf none value (.value value)
  | decrypted {cipher : Cipher} {value plain : Json} (h : cipher.decrypt value = .ok plain) :
      IsOf (some cipher) value (.value plain)
  | undecryptable {cipher : Cipher} {value : Json} {fault : DecryptionFault}
      (h : cipher.decrypt value = .error fault) : IsOf (some cipher) value (.failure value fault)

theorem Delivered.isOf_of (cipher : Option Cipher) (value : Json) :
    IsOf cipher value (Delivered.of cipher value) := by
  cases cipher with
  | none => exact .plain value
  | some cipher =>
    unfold Delivered.of Cipher.decryptMessage
    dsimp only
    cases h : cipher.decrypt value with
    | ok plain => exact .decrypted h
    | error fault => exact .undecryptable h

/-- What a field of a record is handed on as: only that with the message is touched. -/
structure IsFieldOf (cipher : Option Cipher) (field : String × Json)
    (shown : String × Delivered) : Prop where
  key : shown.1 = field.1
  message : field.1 = "message" → Delivered.IsOf cipher field.2 shown.2
  other : field.1 ≠ "message" → shown.2 = .value field.2

/-- What an entry of a list of messages is handed on as, for a request with this cipher that asks
for records about messages or for the messages alone. -/
inductive Message.IsOf (cipher : Option Cipher) : Bool → Json → Message → Prop where
  | plain {entry : Json} {shown : Delivered} (h : Delivered.IsOf cipher entry shown) :
      IsOf cipher false entry (.plain shown)
  | record {fields : List (String × Json)} {shown : List (String × Delivered)}
      (hm : "message" ∈ fields.map Prod.fst) (h : List.Forall₂ (IsFieldOf cipher) fields shown) :
      IsOf cipher true (.obj fields) (.annotated shown)

namespace Request

/-- Does the request ask for records about messages? -/
def wantsRecords (r : Request) : Bool :=
  match r.query with
  | .history _ _ includeToken => includeToken == some true
  | _ => false

theorem wantsRecords_iff {r : Request} : r.wantsRecords = true ↔ r.asksForRecords := by
  unfold wantsRecords asksForRecords
  cases r.query <;> simp

theorem isFieldOf_recordFields (cipher : Option Cipher) (fields : List (String × Json)) :
    List.Forall₂ (IsFieldOf cipher) fields (recordFields cipher fields) := by
  unfold recordFields
  rw [List.forall₂_map_right_iff, List.forall₂_same]
  rintro ⟨key, value⟩ -
  refine ⟨rfl, ?_, fun h => if_neg h⟩
  rintro rfl
  exact Delivered.isOf_of cipher value

/-- A field that is found by its key is there. -/
theorem mem_of_isSome_field? {fields : List (String × Json)} {key : String}
    (h : (Json.field? fields key).isSome = true) : key ∈ fields.map Prod.fst := by
  obtain ⟨value, hvalue⟩ := Option.isSome_iff_exists.1 h
  obtain ⟨field, hfield, -⟩ := Option.map_eq_some_iff.1 hvalue
  have hkey : field.1 = key := by simpa using List.find?_some hfield
  exact hkey ▸ List.mem_map_of_mem (List.mem_of_find?_eq_some hfield)

/-- An entry is handed on as what comes of it. -/
theorem HandsOn.isOf {r : Request} {entry : Json} {message : Message}
    (h : r.HandsOn entry message) :
    Message.IsOf r.cipher r.wantsRecords entry message := by
  cases h with
  | plain hr =>
    rw [← wantsRecords_iff, Bool.not_eq_true] at hr
    rw [hr]
    exact .plain (Delivered.isOf_of r.cipher entry)
  | record hr hm =>
    rw [wantsRecords_iff.2 hr]
    exact .record (mem_of_isSome_field? hm) (isFieldOf_recordFields r.cipher _)

/-! ## Channels and timetokens -/

/-- These are the channels of the messages of a subscription to the channels `asked`, where `named`
is what stands in the response after the timetoken: they are the pieces of its text if there is
anything to it, and else they are all the one channel asked for. -/
inductive NamesSources (asked : List String) : Option Json → List String → Prop where
  | named {value : Json} {names : List String} (ht : value.isTruthy = true)
      (hc : IsCutAtCommas value.toText names) : NamesSources asked (some value) names
  | asked {named : Option Json} {names : List String}
      (ht : ∀ value, named = some value → value.isTruthy = false)
      (hn : ∀ name ∈ names, asked = [name]) : NamesSources asked named names

/-- **There are as many channels as messages.** -/
theorem subscribeChannels_eq_ok {asked names : List String} {messages : List Json}
    {named : Option Json} (h : subscribeChannels asked messages named = .ok names) :
    names.length = messages.length ∧ NamesSources asked named names := by
  unfold subscribeChannels at h
  split at h
  · rename_i value hfilter
    obtain ⟨rfl, ht⟩ := Option.filter_eq_some_iff.1 hfilter
    dsimp only at h
    split at h
    · rename_i hlength
      cases h
      exact ⟨hlength, .named ht (isCutAtCommas_splitCommas _)⟩
    · cases h
  · rename_i hfilter
    have ht : ∀ value, named = some value → value.isTruthy = false := by
      rintro value rfl
      simpa using hfilter
    split at h
    · rename_i hempty
      cases h
      obtain rfl := List.isEmpty_iff.1 hempty
      exact ⟨rfl, .asked ht (by simp)⟩
    · split at h
      · cases h
        exact ⟨by simp, .asked ht (by simp)⟩
      · cases h

/-- A timetoken that is accepted is the text of what stands there. -/
theorem subscribeTimetoken_eq_ok {value : Json} {timetoken : String}
    (h : subscribeTimetoken value = .ok timetoken) : timetoken = value.toText := by
  unfold subscribeTimetoken at h
  dsimp only at h
  split at h
  · split at h <;> cases h
    rfl
  · split at h <;> cases h
    rfl
  · cases h

/-! ## Bodies -/

/-- What is known of a result and the body it was read from: a message for each entry, and for a
subscription a channel for each message and a position. -/
inductive AlignedWith (r : Request) (result : Result) : Json → Prop where
  | intro {entries rest : List Json} {messages : List Message}
      (hm : result.messages = some messages)
      (he : List.Forall₂ (Message.IsOf r.cipher r.wantsRecords) entries messages)
      (hs : ∀ asked timetoken timetokens, r.query = .subscribe asked timetoken timetokens →
        ∃ names position, result.channels = some names ∧ names.length = messages.length
          ∧ NamesSources asked rest[1]? names ∧ result.timetoken = some position
          ∧ IsTimetoken position ∧ rest.head?.map Json.toText = some position) :
      AlignedWith r result (.arr (.arr entries :: rest))

/-- An accepted body is aligned with its result. -/
theorem alignedWith_of_interpret {r : Request} {body : Json} {result : Result}
    (hk : r.kind = .subscribe ∨ r.kind = .history) (h : r.interpret body = .ok result) :
    r.AlignedWith result body := by
  obtain ⟨entries, hcarries⟩ := exists_carries hk h
  obtain ⟨result', messages, h', hm, hentries⟩ := interpret_of_carries hcarries
  obtain rfl := Except.ok.inj (h.symm.trans h')
  have hall := hentries.imp fun _ _ => HandsOn.isOf
  cases hcarries with
  | @subscribe channels names timetoken timetokens named t rest hq ht hn =>
    refine .intro hm hall fun asked _ _ hasked => ?_
    obtain ⟨rfl, -, -⟩ := Query.subscribe.inj (hq.symm.trans hasked)
    obtain ⟨hlength, hsources⟩ := subscribeChannels_eq_ok hn
    simp only [interpret, hq, interpretSubscribe, ht, hn, bind, Except.bind, pure, Except.pure,
      Except.ok.injEq] at h
    have hnamed := subscribeTimetoken_eq_ok ht
    rw [List.head?_eq_getElem?] at hsources
    exact ⟨names, t, by rw [← h], hlength.trans hentries.length_eq, hsources, by rw [← h],
      (interprets_subscribeTimetoken named).of_eq_ok ht, by simp [hnamed]⟩
  | history hq hi =>
    refine .intro hm hall fun asked _ _ hasked => ?_
    cases hq.symm.trans hasked
  | records hq hr =>
    refine .intro hm hall fun asked _ _ hasked => ?_
    cases hq.symm.trans hasked

/-- **Messages, channels and decryption stay aligned.** Every body of a response to a subscription
or a history is malformed, or it begins with a list of entries and is interpreted as a result with
one message for each of them, in their order. What becomes of an entry depends on itself and the
cipher alone. For a subscription there is then a channel for each message, and the position is the
text that follows the entries, which consists of digits. The bodies that are not malformed are those
that carry messages. -/
theorem messages_aligned {r : Request} (hk : r.kind = .subscribe ∨ r.kind = .history)
    (body : Json) :
    Interprets (fun result => r.AlignedWith result body) (r.interpret body)
      ∧ ((∃ result, r.interpret body = .ok result) ↔ ∃ entries, r.Carries entries body) := by
  refine ⟨?_, ?_, ?_⟩
  · have hread : Interprets (fun _ => True) (r.interpret body) := by
      unfold interpret
      unfold kind at hk
      cases hq : r.query with
      | subscribe asked =>
        exact (interprets_subscribe r.cipher asked body).mono fun _ _ => trivial
      | history channel limit includeToken =>
        exact (interprets_history r.cipher includeToken body).mono fun _ _ => trivial
      | _ =>
        rw [hq] at hk
        simp [Query.kind] at hk
    cases h : r.interpret body with
    | ok result => exact .accepted (alignedWith_of_interpret hk h)
    | error e =>
      rw [h] at hread
      cases hread with
      | malformed reason => exact .malformed reason
  · rintro ⟨result, h⟩
    exact exists_carries hk h
  · rintro ⟨entries, h⟩
    obtain ⟨result, -, hresult, -⟩ := interpret_of_carries h
    exact ⟨result, hresult⟩

/-- A subscription to two channels whose messages are encrypted. -/
def pairRequest : Request :=
  ⟨"http://o", "me", "sub", some ⟨Cipher.deriveKey "k", false⟩, 10,
    .subscribe ["a", "b"] "0" ["0", "0"]⟩

/-- A response with two messages that cannot be decrypted. -/
def pairBody : Json := .arr [.arr [.str "plain", .int 17], .int 5, .str "b,a"]

/-- Messages that cannot be decrypted keep their places and their channels. -/
theorem messages_aligned_undecryptable :
    pairRequest.kind = .subscribe ∧ ∃ result, pairRequest.interpret pairBody = .ok result
      ∧ pairRequest.AlignedWith result pairBody ∧ result.channels = some ["b", "a"] := by
  have hchannels : (pairRequest.interpret pairBody).toOption.map Result.channels
      = some (some ["b", "a"]) := by decide +kernel
  have htimetoken : subscribeTimetoken (.int 5) = .ok "5" := rfl
  have hnames : subscribeChannels ["a", "b"] [.str "plain", .int 17] (some (.str "b,a"))
      = .ok ["b", "a"] := rfl
  have hcarries : pairRequest.Carries [.str "plain", .int 17] pairBody :=
    .subscribe rfl htimetoken hnames
  obtain ⟨haligned, haccepted⟩ := messages_aligned (r := pairRequest) (.inl rfl) pairBody
  obtain ⟨result, hresult⟩ := haccepted.2 ⟨_, hcarries⟩
  rw [hresult] at hchannels
  exact ⟨rfl, result, hresult, haligned.of_eq_ok hresult, Option.some.inj hchannels⟩

end Request

end Pubsub
