import Pubsub.Proofs.Addresses
import Pubsub.Proofs.Base64Coding
import Pubsub.Proofs.BlockCipher
import Pubsub.Proofs.Deliveries
import Pubsub.Proofs.JsonRoundTrip

/-!
# An encrypted message arrives as what it was

A message goes a long way from one application to another: it is written as compact text, filled up,
enciphered in a chain, put behind its vector, written in Base64, quoted as a JSON string and coded
into an address; and at the other end it is read out of a list of messages, or out of a record
about it, and all of this is undone. Each step has its inverse in a module of its own. Here they are
put together, and what is said of a cipher is said of every passphrase, because the key that is
derived from one has the right size.
-/

namespace Pubsub

/-! ## Keys -/

/-- A text has at least as many bytes as characters. -/
theorem length_le_length_utf8Bytes (s : String) : s.toList.length ≤ (utf8Bytes s).length := by
  rw [utf8Bytes_eq_flatMap]
  induction s.toList with
  | nil => simp
  | cons c rest ih =>
    have hpos : 0 < (String.utf8EncodeChar c).length := by
      rw [String.length_utf8EncodeChar]
      exact Char.utf8Size_pos c
    rw [List.flatMap_cons, List.length_append, List.length_cons]
    omega

theorem length_toList_hexText (bytes : Bytes) :
    (hexText bytes).toList.length = 2 * bytes.length := by
  rw [hexText, String.toList_ofList]
  induction bytes with
  | nil => rfl
  | cons byte rest ih =>
    simp only [List.flatMap_cons, List.length_append, List.length_cons, List.length_nil, ih]
    omega

namespace Cipher

/-- **A derived key has the size of a key.** -/
theorem length_deriveKey (passphrase : String) : (deriveKey passphrase).length = 32 := by
  have hbytes := length_le_length_utf8Bytes (hexText (Sha256.digest (utf8Bytes passphrase)))
  rw [length_toList_hexText, Sha256.length_digest] at hbytes
  rw [deriveKey, List.length_take]
  omega

theorem length_key_of_ofPassphrase {passphrase : String} {freshVector : Bool} {cipher : Cipher}
    (h : ofPassphrase passphrase freshVector = .ok cipher) : cipher.key.length = 32 := by
  unfold ofPassphrase at h
  split at h
  · cases h
  · cases h
    exact length_deriveKey passphrase

theorem length_fixedVector : fixedVector.length = Cbc.blockSize := by decide +kernel

/-! ## Encrypting and decrypting -/

/-- The vector that a chain is started from. -/
def startVector (cipher : Cipher) (fresh : Bytes) : Bytes :=
  if cipher.freshVector then fresh else fixedVector

/-- The text that a ciphertext is sent as. -/
def sentText (cipher : Cipher) (vector data : Bytes) : String :=
  String.ofList (Base64.encode Base64.standard
    (if cipher.freshVector then vector ++ data else data))

variable {cipher : Cipher} {fresh : Bytes} {v : Json} {plain : String}

theorem length_startVector (cipher : Cipher) (hfresh : fresh.length = Cbc.blockSize) :
    (cipher.startVector fresh).length = Cbc.blockSize := by
  unfold startVector
  split
  · exact hfresh
  · exact length_fixedVector

/-- **The vector and the ciphertext are found again in what was sent**: the vector in front of it,
or the fixed one that was not sent at all. -/
theorem openText_sentText (cipher : Cipher) {data : Bytes} (hdata : data ≠ [])
    (hwhole : data.length % Cbc.blockSize = 0) (hfresh : fresh.length = Cbc.blockSize) :
    cipher.openText (cipher.sentText (cipher.startVector fresh) data)
      = .ok (cipher.startVector fresh, data) := by
  have hascii : ∀ bytes, ((Base64.encode Base64.standard bytes).all (·.toNat < 128)) = true := by
    intro bytes
    simpa using Base64.encode_lt bytes
  unfold openText sentText startVector
  rw [String.toList_ofList, hascii, Base64.decode?_encode]
  cases cipher.freshVector with
  | true =>
    have htake : (fresh ++ data).take Cbc.blockSize = fresh := List.take_left' hfresh
    have hdrop : (fresh ++ data).drop Cbc.blockSize = data := List.drop_left' hfresh
    simp [htake, hdrop, hdata, hwhole]
  | false => simp [hdata, hwhole]

/-- **What is encrypted is decrypted again**, by any cipher with a key of the right size. -/
theorem decrypt_encrypt (cipher : Cipher) (hkey : cipher.key.length = 32)
    (hfresh : fresh.length = Cbc.blockSize)
    (hv : v.IsExact) (he : v.encode = .ok plain) :
    ∃ text, cipher.encrypt fresh v = .ok text ∧ cipher.decrypt (.str text) = .ok v := by
  have hlength := Cbc.length_pad (utf8Bytes plain)
  obtain ⟨ciphertext, hencrypt, hsame, hdecrypt⟩ :=
    Cbc.decrypt_encrypt hkey (cipher.length_startVector hfresh) hlength
  rw [hlength] at hsame
  have hdata : ciphertext ≠ [] := by
    rintro rfl
    simp [Cbc.blockSize] at hsame
  have hopen := cipher.openText_sentText hdata (by rw [hsame, Nat.mul_mod_right]) hfresh
  have hread := Json.decode?_utf8Bytes_of_encode hv he
  refine ⟨cipher.sentText (cipher.startVector fresh) ciphertext, ?_, ?_⟩
  · unfold startVector at hencrypt
    simp [encrypt, he, hencrypt, bind, Except.bind]
    rfl
  · simp [decrypt, hopen, hdecrypt, bind, Except.bind, Cbc.unpad?_pad, hread]
    rfl

end Cipher

namespace Request

/-! ## Arriving -/

/-- The element of a message list has the text in the place of the message, and the message that is
handed on has the value there and is the same otherwise. -/
inductive Restores (r : Request) (text : String) (v : Json) : Json → Message → Prop where
  | plain (hr : ¬ r.asksForRecords) : Restores r text v (.str text) (.plain (.value v))
  | record {before after : List (String × Json)} (hr : r.asksForRecords)
      (hb : "message" ∉ before.map Prod.fst) (ha : "message" ∉ after.map Prod.fst) :
      Restores r text v (.obj (before ++ ("message", .str text) :: after))
        (.annotated (before.map (Prod.map id .value) ++ ("message", .value v)
          :: after.map (Prod.map id .value)))

variable {r : Request} {cipher : Cipher} {text : String} {v element : Json}
  {message handed : Message}

/-- Fields other than the message are handed on as they are. -/
theorem recordFields_of_not_mem {fields : List (String × Json)}
    (h : "message" ∉ fields.map Prod.fst) :
    recordFields r.cipher fields = fields.map (Prod.map id .value) := by
  refine List.map_congr_left fun field hm => ?_
  have hne : field.1 ≠ "message" := by
    rintro heq
    exact h (List.mem_map.2 ⟨field, hm, heq⟩)
  simp [hne, Prod.map]

/-- **A text that decrypts to a value is replaced by the value**, and nothing else is changed. -/
theorem HandsOn.eq_of_restores (hc : r.cipher = some cipher)
    (hd : cipher.decrypt (.str text) = .ok v) (h : r.Restores text v element message)
    (hh : r.HandsOn element handed) : handed = message := by
  have hvalue : Delivered.of r.cipher (.str text) = .value v := by
    rw [hc, Delivered.of, Cipher.decryptMessage, hd]
  cases h with
  | plain hr =>
    cases hh with
    | plain => rw [hvalue]
  | record hr hb ha =>
    cases hh with
    | plain hr' => exact absurd hr hr'
    | record =>
      have hfields : ∀ before after : List (String × Json),
          recordFields r.cipher (before ++ ("message", .str text) :: after)
            = recordFields r.cipher before ++ ("message", .value v)
              :: recordFields r.cipher after := by
        simp [recordFields, hvalue]
      rw [hfields, recordFields_of_not_mem hb, recordFields_of_not_mem ha]

/-- What a response hands on in the place of a text that decrypts to a value. -/
theorem exists_restored {messages : List Json} {body : Json} (hc : r.cipher = some cipher)
    (hd : cipher.decrypt (.str text) = .ok v) (hb : r.Carries messages body) :
    ∃ result delivered, r.interpret body = .ok result ∧ result.messages = some delivered
      ∧ delivered.length = messages.length
      ∧ ∀ (i : Nat) (element : Json) (message : Message), messages[i]? = some element →
        r.Restores text v element message → delivered[i]? = some message := by
  obtain ⟨result, delivered, hread, hmessages, hall⟩ := interpret_of_carries hb
  refine ⟨result, delivered, hread, hmessages, hall.length_eq.symm, ?_⟩
  intro i element message hi hr
  obtain ⟨hlt, rfl⟩ := List.getElem?_eq_some_iff.1 hi
  have hlt' : i < delivered.length := hall.length_eq ▸ hlt
  have hhands := hall.get hlt hlt'
  rw [List.getElem?_eq_getElem hlt', ← hhands.eq_of_restores hc hd hr]
  rfl

variable {p : Profile} {cursor : Cursor} {fresh : Bytes} {c c' : Configuration} {channel : String}
  {timeout : Json} {seconds : Binary64} {serialized : String}

/-- A publish whose message is written and that can be signed is built, and the message is read off
its address. -/
theorem exists_publish (cursor : Cursor) (hkey : p.publishKey ≠ "")
    (hchannel : IsChannelName channel)
    (hsign : p.secretKey = none ∨ p.scheme ≠ .bare)
    (ht : c.resolveTimeout timeout Setting.timeout.name = (.ok seconds, c'))
    (hm : p.Serializes fresh v serialized) :
    ∃ r rest reading, build p cursor fresh c (.publish (.str channel) v) timeout = (.ok r, c')
      ∧ r.url? = some (p.origin ++ "/" ++ rest) ∧ Reading.read? rest = some reading
      ∧ reading.segments.getLast? = some (.text serialized) := by
  obtain ⟨signature, hs⟩ : ∃ signature, p.Signs channel serialized signature := by
    unfold Profile.Signs
    cases hsecret : p.secretKey with
    | none => exact ⟨"0", rfl⟩
    | some secretKey =>
      cases hscheme : p.scheme with
      | bare => simp [hsecret, hscheme] at hsign
      | _ => exact ⟨_, rfl⟩
  have hquery : Query.ofPublish p fresh (.str channel) v
      = .ok (.publish p.publishKey channel signature serialized) :=
    Query.ofPublish_eq_ok_iff.2 ⟨hkey, channel, serialized, signature,
      checkChannel_of_isChannelName hchannel, hm, hs, rfl⟩
  have hbuilt : build p cursor fresh c (.publish (.str channel) v) timeout
      = (.ok ⟨p.origin, p.uuid, p.subscribeKey, p.cipher, seconds,
        .publish p.publishKey channel signature serialized⟩, c') := by
    simp [build, Operation.precheck, Operation.timeoutSetting, ht, Query.ofOperation, hquery,
      Except.map]
  obtain ⟨rest, hurl, hread⟩ := read?_url? (r := ⟨p.origin, p.uuid, p.subscribeKey, p.cipher,
    seconds, .publish p.publishKey channel signature serialized⟩) (by simp)
    (by simp [NamesChannels, Query.channels?])
  exact ⟨_, rest, _, hbuilt, hurl, hread, rfl⟩

/-- **An encrypted message arrives as what it was.** Take any passphrase, either way of choosing
vectors, and any vector, and let a value be written that has no doubles and repeats no key. There
is a text such that

* a publish of the value with the cipher of the passphrase is built, and the message segment of its
  address is read as the JSON string of the text; and
* whatever response another request with the same cipher gets, if the text stands at some place of
  its messages, or in the record at some place, the value is handed on at that place, whatever the
  other messages are. -/
theorem encrypted_message_arrives {passphrase : String} {plain : String} (freshVector : Bool)
    (hpassphrase : passphrase ≠ "") (hfresh : fresh.length = 16) (hv : v.IsExact)
    (hplain : v.encode = .ok plain) :
    ∃ cipher text, Cipher.ofPassphrase passphrase freshVector = .ok cipher
      ∧ (∀ (p : Profile) (cursor : Cursor) (c c' : Configuration) (channel : String)
          (timeout : Json) (seconds : Binary64), p.cipher = some cipher → p.publishKey ≠ "" →
        IsChannelName channel → (p.secretKey = none ∨ p.scheme ≠ .bare) →
        c.resolveTimeout timeout Setting.timeout.name = (.ok seconds, c') →
        ∃ r rest reading serialized,
          build p cursor fresh c (.publish (.str channel) v) timeout = (.ok r, c')
          ∧ r.url? = some (p.origin ++ "/" ++ rest) ∧ Reading.read? rest = some reading
          ∧ reading.segments.getLast? = some (.text serialized)
          ∧ Json.decode? (utf8Bytes serialized) = some (.str text))
      ∧ ∀ (r : Request) (messages : List Json) (body : Json), r.cipher = some cipher →
        r.Carries messages body →
        ∃ result delivered, r.interpret body = .ok result ∧ result.messages = some delivered
          ∧ delivered.length = messages.length
          ∧ ∀ (i : Nat) (element : Json) (message : Message), messages[i]? = some element →
            r.Restores text v element message → delivered[i]? = some message := by
  have hcipher : Cipher.ofPassphrase passphrase freshVector
      = .ok ⟨Cipher.deriveKey passphrase, freshVector⟩ := if_neg hpassphrase
  obtain ⟨text, hencrypt, hdecrypt⟩ := Cipher.decrypt_encrypt
    ⟨Cipher.deriveKey passphrase, freshVector⟩ (Cipher.length_deriveKey passphrase) hfresh hv hplain
  refine ⟨_, text, hcipher, ?_, fun r messages body hc hb => exists_restored hc hdecrypt hb⟩
  intro p cursor c c' channel timeout seconds hp hkey hchannel hsign ht
  have hserialized : (Json.str text).encode = .ok (Json.str text).text := rfl
  have hm : p.Serializes fresh v (Json.str text).text := by
    rw [Profile.Serializes, hp]
    exact ⟨text, hencrypt, hserialized⟩
  obtain ⟨r, rest, reading, hbuilt, hurl, hread, hlast⟩ :=
    exists_publish cursor hkey hchannel hsign ht hm
  exact ⟨r, rest, reading, _, hbuilt, hurl, hread, hlast,
    Json.decode?_utf8Bytes_of_encode (.str text) hserialized⟩

/-- A value with signs that have to be escaped at one stage or another. -/
def nestedValue : Json := .obj [("é", .arr [.int (-1), .null, .str "\"/+\n"])]

/-- A value goes through an address and comes out of a record, beside a message that is not even
encrypted. -/
theorem encrypted_message_arrives_nested :
    ∃ cipher text r rest reading serialized,
      Cipher.ofPassphrase "secret" true = .ok cipher
      ∧ (build ⟨"p/b", "s?b", none, .md5, some cipher, "http://o", "a b"⟩ .empty
          (List.replicate 16 7) (Configuration.initial ⟨[]⟩ none)
          (.publish (.str "c") nestedValue) (.int 5)).1 = .ok r
      ∧ r.url? = some ("http://o" ++ "/" ++ rest) ∧ Reading.read? rest = some reading
      ∧ reading.segments.getLast? = some (.text serialized)
      ∧ Json.decode? (utf8Bytes serialized) = some (.str text)
      ∧ ∃ result delivered,
        ({ r with query := .history "c" 2 (some true) } : Request).interpret
          (.arr [.arr [.obj [("message", .int 0)],
            .obj [("timetoken", .int 17), ("message", .str text)]]]) = .ok result
        ∧ result.messages = some delivered
        ∧ delivered[1]? = some (.annotated [("timetoken", .value (.int 17)),
          ("message", .value nestedValue)]) := by
  have hv : nestedValue.IsExact := by
    refine .obj (by decide) ?_
    simpa using Json.IsExact.arr (by simp [Json.IsExact.int, Json.IsExact.null, Json.IsExact.str])
  have hplain : nestedValue.encode = .ok nestedValue.text := rfl
  have hfresh : (List.replicate 16 7 : Bytes).length = 16 := rfl
  obtain ⟨cipher, text, hcipher, hpublish, hreceive⟩ :=
    encrypted_message_arrives true (show "secret" ≠ "" by decide) hfresh hv hplain
  have ht := (Configuration.initial ⟨[]⟩ none).resolveTimeout_int (n := 5) (by decide)
    (by decide +kernel) Setting.timeout.name
  obtain ⟨r, rest, reading, serialized, hbuilt, hurl, hread, hlast, hdecode⟩ :=
    hpublish ⟨"p/b", "s?b", none, .md5, some cipher, "http://o", "a b"⟩ .empty _ _ "c" _ _ rfl
      (by simp) (by simp [IsChannelName]) (Or.inl rfl) ht
  refine ⟨cipher, text, r, rest, reading, serialized, hcipher, by rw [hbuilt], hurl, hread, hlast,
    hdecode, ?_⟩
  have hc : r.cipher = some cipher := (build_eq_ok hbuilt).2.2.2.2
  have hrecords : ∀ message ∈ [Json.obj [("message", .int 0)],
      .obj [("timetoken", .int 17), ("message", .str text)]], ∃ fields, message = .obj fields
        ∧ (Json.field? fields "message").isSome = true := by
    simp [Json.field?]
  obtain ⟨result, delivered, hresult, hmessages, -, hall⟩ := hreceive
    { r with query := .history "c" 2 (some true) } _ _ hc (.records rfl hrecords)
  have hrestores : Restores { r with query := .history "c" 2 (some true) } text nestedValue
      (.obj ([("timetoken", .int 17)] ++ ("message", .str text) :: [])) _ :=
    .record ⟨_, _, rfl⟩ (by simp) (by simp)
  exact ⟨result, delivered, hresult, hmessages, hall 1 _ _ rfl hrestores⟩

end Request

end Pubsub
