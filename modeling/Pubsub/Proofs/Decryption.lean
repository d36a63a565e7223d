import Pubsub.Proofs.EncryptedMessages

/-!
# Decryption is total and guarded

What is delivered to be decrypted can be anything: whoever may publish on a channel decides what it
is. The stages of decryption each refuse something, a value that is no text, a text that is not
Base64, bytes that are not whole blocks, and so on; what gets through all of them is described here
without them (`Cipher.Encloses`).

One of the stages is not like the others. The block cipher is somebody else's, and what it does with
a key, a vector or data of a wrong size is not to matter. To say so it is made a parameter
(`Cipher.decryptUsing`): two block ciphers that agree where the sizes are right cannot be told apart
by decrypting with them, so what they do elsewhere is never looked at.
-/

namespace Pubsub

namespace Cipher

/-- A block cipher in a mode: what becomes of data under a key and a vector. -/
abbrev Primitive := Bytes → Bytes → Bytes → Except Cbc.SizeError Bytes

/-- The value of what was deciphered, if it is a filled up JSON text. -/
def readPlain (padded : Bytes) : Except DecryptionFault Json :=
  match Cbc.unpad? padded with
  | none => .error .badPadding
  | some plain =>
    match Json.decode? plain with
    | none => .error .notJson
    | some value => .ok value

/-- The value that a delivered one was before it was encrypted, with the block cipher as a
parameter. -/
def decryptUsing (primitive : Primitive) (cipher : Cipher) : Json → Except DecryptionFault Json
  | .str s =>
    match cipher.openText s with
    | .error fault => .error fault
    | .ok (vector, data) =>
      match primitive cipher.key vector data with
      | .error cause => .error (.refused cause)
      | .ok padded => readPlain padded
  | value => .error (.notText value.kindName)

/-- It is AES in a chain that values are decrypted with. -/
theorem decrypt_eq_decryptUsing (cipher : Cipher) :
    cipher.decrypt = cipher.decryptUsing Cbc.decrypt := by
  funext x
  cases x with
  | str s =>
    dsimp only [decrypt, decryptUsing]
    cases cipher.openText s with
    | error fault => rfl
    | ok opened =>
      obtain ⟨vector, data⟩ := opened
      dsimp only [bind, Except.bind]
      cases Cbc.decrypt cipher.key vector data <;> rfl
  | _ => rfl

/-! ## What is opened -/

/-- The least number of bytes that can be decrypted: a block, and the vector if it was sent. -/
def leastLength (cipher : Cipher) : Nat :=
  if cipher.freshVector then 2 * Cbc.blockSize else Cbc.blockSize

/-- The vector of the chain: the first block of the bytes, or the fixed one. -/
def vectorIn (cipher : Cipher) (bytes : Bytes) : Bytes :=
  if cipher.freshVector then bytes.take Cbc.blockSize else fixedVector

/-- The blocks to be deciphered: all but the vector. -/
def dataIn (cipher : Cipher) (bytes : Bytes) : Bytes :=
  if cipher.freshVector then bytes.drop Cbc.blockSize else bytes

variable {cipher : Cipher} {s : String} {bytes vector data : Bytes}

/-- **The sizes are right exactly if there are enough bytes, in whole blocks.** -/
theorem wholeBlocks_dataIn_iff (cipher : Cipher) (bytes : Bytes) :
    (cipher.dataIn bytes ≠ [] ∧ Cbc.blockSize ∣ (cipher.dataIn bytes).length)
      ↔ Cbc.blockSize ∣ bytes.length ∧ cipher.leastLength ≤ bytes.length := by
  rw [← List.length_pos_iff]
  unfold dataIn leastLength Cbc.blockSize
  split
  · rw [List.length_drop]
    omega
  · omega

/-- The stages of opening a text. -/
theorem openText_eq (cipher : Cipher) (s : String) :
    cipher.openText s =
      if !s.toList.all (·.toNat < 128) then .error .notAscii
      else match Base64.decode? Base64.standard s.toList with
        | none => .error .notBase64
        | some bytes =>
          if (cipher.dataIn bytes).isEmpty || (cipher.dataIn bytes).length % Cbc.blockSize != 0
          then .error .notWholeBlocks
          else .ok (cipher.vectorIn bytes, cipher.dataIn bytes) := by
  unfold openText vectorIn dataIn
  cases cipher.freshVector <;> rfl

/-- **A text is opened exactly if it is Base64 of enough bytes, in whole blocks.** -/
theorem openText_eq_ok_iff :
    cipher.openText s = .ok (vector, data)
      ↔ ∃ bytes, Base64.IsStrict s.toList bytes ∧ Cbc.blockSize ∣ bytes.length
        ∧ cipher.leastLength ≤ bytes.length ∧ vector = cipher.vectorIn bytes
        ∧ data = cipher.dataIn bytes := by
  rw [openText_eq]
  constructor
  · intro h
    split at h
    · cases h
    · split at h
      · cases h
      · rename_i bytes hdecode
        split at h
        · cases h
        · rename_i hwhole
          cases h
          obtain ⟨hlength, hleast⟩ := (cipher.wholeBlocks_dataIn_iff bytes).1
            (by simpa [Nat.dvd_iff_mod_eq_zero] using hwhole)
          exact ⟨bytes, Base64.decode?_eq_some_iff.1 hdecode, hlength, hleast, rfl, rfl⟩
  · rintro ⟨bytes, hstrict, hlength, hleast, rfl, rfl⟩
    have hascii : s.toList.all (·.toNat < 128) = true := by simpa using hstrict.lt
    have hwhole := (cipher.wholeBlocks_dataIn_iff bytes).2 ⟨hlength, hleast⟩
    rw [hascii, Base64.decode?_eq_some_iff.2 hstrict]
    simp [hwhole.1, Nat.mod_eq_zero_of_dvd hwhole.2]

/-- **What was opened fits the block cipher**, if the key does. -/
theorem fits_of_openText (hkey : cipher.key.length = 32)
    (h : cipher.openText s = .ok (vector, data)) : Cbc.Fits cipher.key vector data := by
  obtain ⟨bytes, -, hlength, hleast, rfl, rfl⟩ := openText_eq_ok_iff.1 h
  obtain ⟨hne, hwhole⟩ := (cipher.wholeBlocks_dataIn_iff bytes).2 ⟨hlength, hleast⟩
  refine ⟨hkey, ?_, hne, hwhole⟩
  unfold leastLength at hleast
  unfold vectorIn
  split
  · rename_i hfresh
    rw [if_pos hfresh] at hleast
    rw [List.length_take]
    omega
  · exact length_fixedVector

/-! ## What is decrypted -/

/-- **The delivered value encloses a value**: it is a text in strict Base64 of enough bytes, in
whole blocks, and what is deciphered of them is a JSON text of the value, filled up. -/
inductive Encloses (cipher : Cipher) : Json → Json → Prop where
  | intro {s : String} {bytes plain : Bytes} {n : Nat} {v : Json}
      (hstrict : Base64.IsStrict s.toList bytes) (hwhole : Cbc.blockSize ∣ bytes.length)
      (hleast : cipher.leastLength ≤ bytes.length)
      (hdecrypt : Cbc.decrypt cipher.key (cipher.vectorIn bytes) (cipher.dataIn bytes)
        = .ok (plain ++ List.replicate n (UInt8.ofNat n)))
      (hpos : 0 < n) (hn : n ≤ Cbc.blockSize) (hjson : Json.decode? plain = some v) :
      Encloses cipher (.str s) v

theorem readPlain_eq_ok_iff {padded : Bytes} {v : Json} :
    readPlain padded = .ok v ↔ ∃ plain n, 0 < n ∧ n ≤ Cbc.blockSize
      ∧ padded = plain ++ List.replicate n (UInt8.ofNat n) ∧ Json.decode? plain = some v := by
  unfold readPlain
  constructor
  · intro h
    split at h
    · cases h
    · rename_i plain hplain
      split at h
      · cases h
      · rename_i value hjson
        cases h
        obtain ⟨n, hpos, hn, hpadded⟩ := Cbc.unpad?_eq_some_iff.1 hplain
        exact ⟨plain, n, hpos, hn, hpadded, hjson⟩
  · rintro ⟨plain, n, hpos, hn, hpadded, hjson⟩
    rw [Cbc.unpad?_eq_some_iff.2 ⟨n, hpos, hn, hpadded⟩]
    simp [hjson]

/-- **A value is decrypted exactly if it is enclosed.** -/
theorem decrypt_eq_ok_iff {x v : Json} : cipher.decrypt x = .ok v ↔ cipher.Encloses x v := by
  rw [decrypt_eq_decryptUsing]
  constructor
  · intro h
    cases x with
    | str s =>
      dsimp only [decryptUsing] at h
      split at h
      · cases h
      · rename_i vector data hopen
        split at h
        · cases h
        · rename_i padded hdecrypt
          obtain ⟨bytes, hstrict, hwhole, hleast, rfl, rfl⟩ := openText_eq_ok_iff.1 hopen
          obtain ⟨plain, n, hpos, hn, rfl, hjson⟩ := readPlain_eq_ok_iff.1 h
          exact .intro hstrict hwhole hleast hdecrypt hpos hn hjson
    | _ => cases h
  · rintro ⟨hstrict, hwhole, hleast, hdecrypt, hpos, hn, hjson⟩
    have hopen := openText_eq_ok_iff.2 ⟨_, hstrict, hwhole, hleast, rfl, rfl⟩
    dsimp only [decryptUsing]
    rw [hopen]
    dsimp only
    rw [hdecrypt]
    exact readPlain_eq_ok_iff.2 ⟨_, _, hpos, hn, rfl, hjson⟩

/-! ## The block cipher -/

/-- **Block ciphers that agree where the sizes are right cannot be told apart.** -/
theorem decryptUsing_congr {p q : Primitive} (hkey : cipher.key.length = 32)
    (h : ∀ vector data, Cbc.Fits cipher.key vector data →
      p cipher.key vector data = q cipher.key vector data) :
    cipher.decryptUsing p = cipher.decryptUsing q := by
  funext x
  cases x with
  | str s =>
    dsimp only [decryptUsing]
    cases hopen : cipher.openText s with
    | error fault => rfl
    | ok opened =>
      obtain ⟨vector, data⟩ := opened
      dsimp only
      rw [h vector data (fits_of_openText hkey hopen)]
  | _ => rfl

/-- Only the block cipher refuses a value for its sizes. -/
theorem exists_of_refused {primitive : Primitive} {x : Json} {cause : Cbc.SizeError}
    (h : cipher.decryptUsing primitive x = .error (.refused cause)) :
    ∃ s vector data, x = .str s ∧ cipher.openText s = .ok (vector, data)
      ∧ primitive cipher.key vector data = .error cause := by
  cases x with
  | str s =>
    dsimp only [decryptUsing] at h
    split at h
    · rename_i fault hopen
      cases h
      rw [openText_eq] at hopen
      split at hopen
      · cases hopen
      · split at hopen
        · cases hopen
        · split at hopen <;> cases hopen
    · rename_i vector data hopen
      split at h
      · rename_i cause' hrefused
        cases h
        exact ⟨s, vector, data, rfl, hopen, hrefused⟩
      · rename_i padded _
        unfold readPlain at h
        split at h
        · cases h
        · split at h <;> cases h
  | _ => cases h

/-- **The block cipher refuses nothing that it is given.** -/
theorem decrypt_ne_refused (hkey : cipher.key.length = 32) (x : Json) (cause : Cbc.SizeError) :
    cipher.decrypt x ≠ .error (.refused cause) := by
  rw [decrypt_eq_decryptUsing]
  intro h
  obtain ⟨s, vector, data, rfl, hopen, hrefused⟩ := exists_of_refused h
  obtain ⟨padded, hdecrypt, -⟩ := (fits_of_openText hkey hopen).exists_decrypt
  cases hrefused.symm.trans hdecrypt

theorem decryptMessage_eq_value_iff {x v : Json} :
    cipher.decryptMessage x = .value v ↔ cipher.decrypt x = .ok v := by
  unfold decryptMessage
  cases cipher.decrypt x <;> simp

/-- **Decryption is total and guarded.** Take the cipher of any passphrase, with either way of
choosing vectors. Whatever is delivered is handed on as a value or, as it arrived, with a fault, and
the fault is never that the block cipher refused something. It is a value exactly if what was
delivered encloses that value. And the block cipher is only looked at where the sizes of key, vector
and data are right: any other block cipher would do that agrees with it there. -/
theorem decryption_is_guarded {passphrase : String} (freshVector : Bool)
    (hpassphrase : passphrase ≠ "") :
    ∃ cipher, ofPassphrase passphrase freshVector = .ok cipher
      ∧ cipher.freshVector = freshVector
      ∧ (∀ x, (∃ v, cipher.decryptMessage x = .value v)
          ∨ ∃ fault, cipher.decryptMessage x = .failure x fault ∧ ∀ cause, fault ≠ .refused cause)
      ∧ (∀ x v, cipher.decryptMessage x = .value v ↔ cipher.Encloses x v)
      ∧ cipher.decrypt = cipher.decryptUsing Cbc.decrypt
      ∧ ∀ p q : Primitive, (∀ key vector data, Cbc.Fits key vector data →
          p key vector data = q key vector data) →
        cipher.decryptUsing p = cipher.decryptUsing q := by
  have hcipher : ofPassphrase passphrase freshVector = .ok ⟨deriveKey passphrase, freshVector⟩ :=
    if_neg hpassphrase
  have hkey := length_key_of_ofPassphrase hcipher
  refine ⟨_, hcipher, rfl, fun x => ?_, fun x v => ?_, decrypt_eq_decryptUsing _,
    fun p q h => decryptUsing_congr hkey fun vector data => h _ _ _⟩
  · have hrefused := decrypt_ne_refused hkey x
    unfold decryptMessage
    cases hdecrypt : decrypt _ x with
    | ok v => exact .inl ⟨v, rfl⟩
    | error fault =>
      refine .inr ⟨fault, rfl, ?_⟩
      rintro cause rfl
      exact hrefused cause hdecrypt
  · exact decryptMessage_eq_value_iff.trans decrypt_eq_ok_iff

/-- A value to be encrypted. -/
def greeting : Json := .obj [("hello", .str "world")]

/-- An object is read out of its ciphertext; a number, and a text of three bytes, are handed on as
they arrived. -/
theorem decryption_is_guarded_greeting :
    ∃ (cipher : Cipher) (text : String), ofPassphrase "enigma" true = .ok cipher
      ∧ cipher.Encloses (.str text) greeting
      ∧ ∀ x, x = .int 17 ∨ x = .str "AAAA" →
        ∃ fault, cipher.decryptMessage x = .failure x fault ∧ ∀ v, ¬ cipher.Encloses x v := by
  obtain ⟨cipher, hcipher, hfresh, -, hvalues, -⟩ :=
    decryption_is_guarded true (show "enigma" ≠ "" by decide)
  have hv : greeting.IsExact := .obj (by decide) (by simpa using Json.IsExact.str "world")
  have hplain : greeting.encode = .ok greeting.text := rfl
  have hvector : (List.replicate 16 7 : Bytes).length = Cbc.blockSize := rfl
  obtain ⟨text, -, hdecrypt⟩ :=
    cipher.decrypt_encrypt (length_key_of_ofPassphrase hcipher) hvector hv hplain
  refine ⟨cipher, text, hcipher, (hvalues _ _).1 (decryptMessage_eq_value_iff.2 hdecrypt), ?_⟩
  have hfailed : ∀ x fault, cipher.decryptMessage x = .failure x fault →
      ∃ fault, cipher.decryptMessage x = .failure x fault ∧ ∀ v, ¬ cipher.Encloses x v := by
    intro x fault hx
    refine ⟨fault, hx, fun v hencloses => ?_⟩
    cases hx.symm.trans ((hvalues x v).2 hencloses)
  obtain ⟨key, fresh⟩ := cipher
  obtain rfl : fresh = true := hfresh
  rintro x (rfl | rfl)
  · exact hfailed _ (.notText "int") rfl
  · exact hfailed _ .notWholeBlocks rfl

end Cipher

end Pubsub
