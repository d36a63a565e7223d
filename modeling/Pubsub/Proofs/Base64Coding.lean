import Pubsub.Crypto.Base64

/-!
# Base64 is read back

Bytes are cut into numbers of six bits, the numbers are written as signs, and the last group is
filled up. Reading goes the same way back: no filling is a sign, so the signs end where the filling
begins, and the numbers of a last group that is not whole say how much of it there has to be.

What is read is described without the reader: signs, and behind them the filling that their number
asks for (`IsStrict`).
-/

namespace Pubsub

namespace Base64

/-- The numbers of six bits that bytes are cut into. -/
def numbers : Bytes → List Nat
  | [] => []
  | [a] => [a.toNat / 4, a.toNat % 4 * 16]
  | [a, b] => [a.toNat / 4, a.toNat % 4 * 16 + b.toNat / 16, b.toNat % 16 * 4]
  | a :: b :: c :: rest =>
    a.toNat / 4 :: (a.toNat % 4 * 16 + b.toNat / 16) :: (b.toNat % 16 * 4 + c.toNat / 64)
      :: c.toNat % 64 :: numbers rest

/-- How much the last group is filled up after so many bytes. -/
def filling (length : Nat) : Nat := (3 - length % 3) % 3

theorem filling_add_three (length : Nat) : filling (length + 3) = filling length := by
  simp [filling]

/-- Signs and filling are what is written. -/
theorem encode_eq (alphabet : Alphabet) (bytes : Bytes) :
    encode alphabet bytes
      = (numbers bytes).map alphabet.sign ++ List.replicate (filling bytes.length) '=' := by
  fun_induction numbers bytes with
  | case1 => rfl
  | case2 a => rfl
  | case3 a b => rfl
  | case4 a b c rest ih =>
    have hfilling : filling (a :: b :: c :: rest).length = filling rest.length :=
      filling_add_three rest.length
    rw [hfilling, encode, ih]
    rfl

theorem numbers_lt (bytes : Bytes) : ∀ n ∈ numbers bytes, n < 64 := by
  fun_induction numbers bytes with
  | case1 => simp
  | case2 a =>
    have ha := a.toNat_lt
    simp
    omega
  | case3 a b =>
    have ha := a.toNat_lt
    have hb := b.toNat_lt
    simp
    omega
  | case4 a b c rest ih =>
    have ha := a.toNat_lt
    have hb := b.toNat_lt
    have hc := c.toNat_lt
    intro n hn
    simp only [List.mem_cons] at hn
    obtain rfl | rfl | rfl | rfl | hn := hn
    · omega
    · omega
    · omega
    · omega
    · exact ih n hn

/-- **The numbers carry the bytes.** -/
theorem join_numbers (bytes : Bytes) : join (numbers bytes) = bytes := by
  have hbyte : ∀ (x : UInt8) (n : Nat), n = x.toNat → UInt8.ofNat n = x := by
    intro x n h
    rw [h, UInt8.ofNat_toNat]
  fun_induction numbers bytes with
  | case1 => rfl
  | case2 a =>
    have ha := a.toNat_lt
    rw [join, hbyte a _ (by omega)]
  | case3 a b =>
    have hb := b.toNat_lt
    rw [join, hbyte a _ (by omega), hbyte b _ (by omega)]
  | case4 a b c rest ih =>
    have hb := b.toNat_lt
    have hc := c.toNat_lt
    rw [join, hbyte a _ (by omega), hbyte b _ (by omega), hbyte c _ (by omega), ih]

/-- Four signs more ask for the same filling. -/
theorem isFilled_add_four {signs fill : Nat} (h : isFilled signs fill = true) :
    isFilled (signs + 4) fill = true := by
  unfold isFilled at h ⊢
  rw [Nat.add_mod_right]
  split at h <;> simp_all

/-- The number of signs asks for the filling that was written. -/
theorem isFilled_numbers (bytes : Bytes) :
    isFilled (numbers bytes).length (filling bytes.length) = true := by
  fun_induction numbers bytes with
  | case1 => rfl
  | case2 a => rfl
  | case3 a b => rfl
  | case4 a b c rest ih =>
    have hfilling : filling (a :: b :: c :: rest).length = filling rest.length :=
      filling_add_three rest.length
    rw [hfilling]
    exact isFilled_add_four ih

/-! ## Signs -/

theorem value?_sign : ∀ n < 64, standard.value? (standard.sign n) = some n := by decide +kernel

theorem sign_lt : ∀ n < 64, (standard.sign n).toNat < 128 := by decide +kernel

/-- **Signs are taken up to the filling.** -/
theorem takeSigns_map_sign {values : List Nat} (h : ∀ n ∈ values, n < 64) (k : Nat) :
    takeSigns standard (values.map standard.sign ++ List.replicate k '=')
      = (values, List.replicate k '=') := by
  induction values with
  | nil =>
    cases k with
    | zero => rfl
    | succ k => rfl
  | cons n rest ih =>
    have hn := value?_sign n (h n List.mem_cons_self)
    have hrest := ih fun m hm => h m (List.mem_cons_of_mem n hm)
    simp [takeSigns, hn, hrest]

/-- **What was written in Base64 is read back.** -/
theorem decode?_encode (bytes : Bytes) : decode? standard (encode standard bytes) = some bytes := by
  have hsigns := takeSigns_map_sign (numbers_lt bytes) (filling bytes.length)
  simp [decode?, encode_eq, hsigns, isFilled_numbers, join_numbers]

/-! ## What is read -/

/-- The filling that so many signs ask for: as much as makes a last group of two or three whole, and
any behind whole groups, if there are some. -/
def Fills (signs fill : Nat) : Prop :=
  (signs % 4 = 0 ∧ (fill = 0 ∨ signs ≠ 0)) ∨ (signs % 4 = 2 ∧ fill = 2)
    ∨ (signs % 4 = 3 ∧ fill = 1)

theorem isFilled_iff {signs fill : Nat} : isFilled signs fill = true ↔ Fills signs fill := by
  have hmod : signs % 4 = 0 ∨ signs % 4 = 1 ∨ signs % 4 = 2 ∨ signs % 4 = 3 := by omega
  unfold isFilled Fills
  rcases hmod with h | h | h | h <;> simp [h]

/-- **The text is strict Base64 of the bytes**: the signs of some numbers, and their filling. -/
inductive IsStrict : List Char → Bytes → Prop where
  | intro {values : List Nat} {fill : Nat} (hvalues : ∀ n ∈ values, n < 64)
      (hfill : Fills values.length fill) :
      IsStrict (values.map standard.sign ++ List.replicate fill '=') (join values)

/-- Between two characters are the codes between theirs. -/
theorem toNat_of_between {lo hi c : Char} (h : (decide (lo ≤ c) && decide (c ≤ hi)) = true) :
    lo.toNat ≤ c.toNat ∧ c.toNat ≤ hi.toNat := by
  rw [Bool.and_eq_true, decide_eq_true_eq, decide_eq_true_eq] at h
  exact ⟨UInt32.le_iff_toNat_le.1 h.1, UInt32.le_iff_toNat_le.1 h.2⟩

/-- Only the sign of a number stands for it. -/
theorem sign_of_value? {c : Char} {n : Nat} (h : standard.value? c = some n) :
    n < 64 ∧ standard.sign n = c := by
  have hchar : ∀ {m : Nat}, m = c.toNat → Char.ofNat m = c := by
    rintro m rfl
    exact Char.ofNat_toNat c
  unfold Alphabet.value? at h
  split at h
  · rename_i hb
    have hupper := toNat_of_between hb
    have h65 : 'A'.toNat = 65 := rfl
    have h90 : 'Z'.toNat = 90 := rfl
    cases h
    refine ⟨by omega, ?_⟩
    rw [Alphabet.sign, if_pos (by omega)]
    exact hchar (by omega)
  split at h
  · rename_i hb
    have hlower := toNat_of_between hb
    have h97 : 'a'.toNat = 97 := rfl
    have h122 : 'z'.toNat = 122 := rfl
    cases h
    refine ⟨by omega, ?_⟩
    rw [Alphabet.sign, if_neg (by omega), if_pos (by omega)]
    exact hchar (by omega)
  split at h
  · rename_i hb
    have hdigit := toNat_of_between hb
    have h48 : '0'.toNat = 48 := rfl
    have h57 : '9'.toNat = 57 := rfl
    cases h
    refine ⟨by omega, ?_⟩
    rw [Alphabet.sign, if_neg (by omega), if_neg (by omega), if_pos (by omega)]
    exact hchar (by omega)
  split at h
  · rename_i hsign
    cases h
    exact ⟨by decide, hsign.symm⟩
  split at h
  · rename_i hsign
    cases h
    exact ⟨by decide, hsign.symm⟩
  · cases h

/-- The signs at the front of a text, and what is behind them. -/
theorem eq_of_takeSigns {s rest : List Char} {values : List Nat}
    (h : takeSigns standard s = (values, rest)) :
    (∀ n ∈ values, n < 64) ∧ s = values.map standard.sign ++ rest := by
  induction s generalizing values with
  | nil =>
    cases h
    simp
  | cons c s ih =>
    unfold takeSigns at h
    split at h
    · rename_i n hn
      obtain ⟨hlt, hsign⟩ := sign_of_value? hn
      cases h
      obtain ⟨hvalues, hs⟩ := ih rfl
      refine ⟨List.forall_mem_cons.2 ⟨hlt, hvalues⟩, ?_⟩
      rw [List.map_cons, hsign, List.cons_append, ← hs]
    · cases h
      simp

/-- **Exactly strict Base64 is read.** -/
theorem decode?_eq_some_iff {s : List Char} {bytes : Bytes} :
    decode? standard s = some bytes ↔ IsStrict s bytes := by
  constructor
  · intro h
    unfold decode? at h
    obtain ⟨values, rest, htake⟩ : ∃ values rest, takeSigns standard s = (values, rest) :=
      ⟨_, _, rfl⟩
    rw [htake] at h
    dsimp only at h
    split at h
    · rename_i hfilled
      obtain ⟨hrest, hfilled⟩ := Bool.and_eq_true_iff.1 hfilled
      obtain ⟨hvalues, rfl⟩ := eq_of_takeSigns htake
      cases h
      have hfilling : rest = List.replicate rest.length '=' := by
        refine List.eq_replicate_iff.2 ⟨rfl, fun c hc => ?_⟩
        simpa using List.all_eq_true.1 hrest c hc
      rw [hfilling]
      exact .intro hvalues (isFilled_iff.1 hfilled)
    · cases h
  · rintro ⟨hvalues, hfill⟩
    have hsigns := takeSigns_map_sign hvalues
    simp [decode?, hsigns, isFilled_iff.2 hfill]

/-- All of strict Base64 is ASCII. -/
theorem IsStrict.lt {s : List Char} {bytes : Bytes} (h : IsStrict s bytes) :
    ∀ c ∈ s, c.toNat < 128 := by
  obtain ⟨hvalues, -⟩ := h
  intro c hc
  rcases List.mem_append.1 hc with hc | hc
  · obtain ⟨n, hn, rfl⟩ := List.mem_map.1 hc
    exact sign_lt n (hvalues n hn)
  · rw [List.eq_of_mem_replicate hc]
    decide

/-- All that is written in Base64 is ASCII. -/
theorem encode_lt (bytes : Bytes) : ∀ c ∈ encode standard bytes, c.toNat < 128 :=
  (decode?_eq_some_iff.1 (decode?_encode bytes)).lt

end Base64

end Pubsub
