import Pubsub.Proofs.Addresses

/-!
# The positions that a subscription sends

A subscription sends the positions of its channels in one of two ways. If they are all the same, the
position in the path stands for all of them; if not, the parameter `tt` lists them in the order of
the channels, and the position in the path is the oldest that any channel has. A server that reads
the parameter if it is there, and the path if not, gets back what the cursor holds, channel by
channel.

Positions are compared as numbers but kept as texts, and one that is written differently is a
different position. The module therefore says first what number a text of ASCII digits denotes, and
that the comparison finds a text whose number is least.
-/

namespace Pubsub

/-! ## Texts of ASCII digits -/

/-- Is the text a number in ASCII digits, and not too long to be read as one? -/
def IsDecimalText (s : String) : Prop :=
  s ≠ "" ∧ (∀ c ∈ s.toList, c.isDigit = true) ∧ s.length ≤ Numeral.maxIntegerDigits

theorem isDecimalText_iff {s : String} : IsDecimalText s
    ↔ s ≠ "" ∧ s.toList.all Char.isDigit = true ∧ s.length ≤ Numeral.maxIntegerDigits := by
  rw [IsDecimalText, List.all_eq_true]

instance (s : String) : Decidable (IsDecimalText s) := decidable_of_iff' _ isDecimalText_iff

/-- The number that a text of ASCII digits denotes. -/
def decimalOf (s : String) : Nat := Nat.ofDigitChars 10 s.toList 0

namespace Numeral

/-- An ASCII digit is already in the form that numerals are read in. -/
theorem normalizeChar_of_isDigit_ascii {c : Char} (h : c.isDigit = true) : normalizeChar c = c := by
  have hdigits : ∀ n < 58, 48 ≤ n → normalizeChar (Char.ofNat n) = Char.ofNat n := by
    decide +kernel
  have hrange : 48 ≤ c.toNat ∧ c.toNat ≤ 57 := Char.isDigit_iff_toNat.1 h
  have hc := hdigits c.toNat (by omega) hrange.1
  rwa [Char.ofNat_toNat] at hc

/-- Digits are read as the number that they denote. -/
theorem readDigits_of_isDigit {s : List Char} (hne : s ≠ []) (h : ∀ c ∈ s, c.isDigit = true)
    (hlong : s.length ≤ maxIntegerDigits) : readDigits s = .ok (Nat.ofDigitChars 10 s 0) := by
  have htake : s.takeWhile (fun c => c.isDigit || c = '_') = s :=
    List.takeWhile_eq_self_iff.2 fun c hc => by simp [h c hc]
  have hfilter : s.filter Char.isDigit = s := List.filter_eq_self.2 h
  have hunderscore : '_' ∉ s := fun hu => ne_of_isDigit (h '_' hu) rfl rfl
  have hhead : (s.head? == some '_') = false := by
    refine Bool.eq_false_iff.2 fun hu => ?_
    exact hunderscore (List.mem_of_head? (eq_of_beq hu))
  simp [readDigits, htake, hfilter, hhead, underscoresSeparate_of_not_mem hunderscore, hne,
    Nat.not_lt.2 hlong]

end Numeral

/-- **A text of ASCII digits denotes their number.** -/
theorem Json.integerOfText_of_isDecimalText {s : String} (h : IsDecimalText s) :
    integerOfText s = .ok (decimalOf s) := by
  obtain ⟨hne, hdigits, hlong⟩ := h
  have hnormal : Numeral.normalize s = s.toList := by
    refine (List.map_congr_left fun c hc => ?_).trans (List.map_id _)
    exact Numeral.normalizeChar_of_isDigit_ascii (hdigits c hc)
  have hlist : s.toList ≠ [] := by simpa using hne
  rw [← String.length_toList] at hlong
  have hread := Numeral.readDigits_of_isDigit hlist hdigits hlong
  unfold integerOfText Numeral.readInteger decimalOf
  rw [hnormal]
  cases hs : s.toList with
  | nil => exact absurd hs hlist
  | cons c rest =>
    rw [hs] at hread hdigits
    have hc := hdigits c List.mem_cons_self
    have hspace : ¬ c = ' ' := Numeral.ne_of_isDigit hc rfl
    have hminus : ¬ c = '-' := Numeral.ne_of_isDigit hc rfl
    have hplus : ¬ c = '+' := Numeral.ne_of_isDigit hc rfl
    rw [List.dropWhile_cons_of_neg (by simpa using hspace)]
    simp [hread, hminus, hplus, Except.map]

/-! ## The oldest position -/

namespace Cursor

/-- The stored positions are texts of ASCII digits. -/
def IsDecimal (cursor : Cursor) : Prop :=
  ∀ channel position, cursor.get? channel = some position → IsDecimalText position

variable {cursor : Cursor}

theorem isDecimalText_origin : IsDecimalText origin := by decide

theorem IsDecimal.empty : empty.IsDecimal := by
  intro channel position h
  cases h

theorem IsDecimal.set (h : cursor.IsDecimal) {timetoken : String} (ht : IsDecimalText timetoken)
    (channel : String) : (cursor.set channel timetoken).IsDecimal := by
  intro other position hp
  rw [get?_set] at hp
  split at hp
  · cases hp
    exact ht
  · exact h other position hp

theorem IsDecimal.positions (h : cursor.IsDecimal) (channels : List String) :
    ∀ position ∈ cursor.positions channels, IsDecimalText position := by
  intro position hm
  obtain ⟨channel, -, rfl⟩ := List.mem_map.1 hm
  cases hg : cursor.get? channel with
  | none => exact isDecimalText_origin
  | some position => exact h channel position hg

/-- **The comparison finds a text whose number is least.** -/
theorem leastFrom_of_isDecimalText {best : String} {texts : List String}
    (h : ∀ s ∈ texts, IsDecimalText s) :
    ∃ least ∈ best :: texts, leastFrom (best, decimalOf best) texts = .ok least
      ∧ ∀ s ∈ best :: texts, decimalOf least ≤ decimalOf s := by
  induction texts generalizing best with
  | nil => exact ⟨best, List.mem_cons_self, rfl, by simp⟩
  | cons s rest ih =>
    have hrest : ∀ t ∈ rest, IsDecimalText t := fun t ht => h t (List.mem_cons_of_mem s ht)
    have hs := Json.integerOfText_of_isDecimalText (h s List.mem_cons_self)
    -- The smaller of the first two goes on against the rest.
    by_cases hlt : decimalOf s < decimalOf best
    · have hstep : leastFrom (best, decimalOf best) (s :: rest)
          = leastFrom (s, decimalOf s) rest := by
        simp [leastFrom, hs, bind, Except.bind, Int.ofNat_lt.2 hlt]
      obtain ⟨least, hm, hleast, hall⟩ := @ih s hrest
      refine ⟨least, List.mem_cons_of_mem best hm, hstep.trans hleast, ?_⟩
      have hbest := hall s List.mem_cons_self
      intro t ht
      obtain rfl | ht := List.mem_cons.1 ht
      · omega
      · exact hall t ht
    · have hstep : leastFrom (best, decimalOf best) (s :: rest)
          = leastFrom (best, decimalOf best) rest := by
        have hle : ¬ (decimalOf s : Int) < decimalOf best := by omega
        simp [leastFrom, hs, bind, Except.bind, hle]
      obtain ⟨least, hm, hleast, hall⟩ := @ih best hrest
      refine ⟨least, ?_, hstep.trans hleast, ?_⟩
      · obtain rfl | hm := List.mem_cons.1 hm
        · exact List.mem_cons_self
        · exact List.mem_cons_of_mem best (List.mem_cons_of_mem s hm)
      · have hbest := hall best List.mem_cons_self
        intro t ht
        obtain rfl | ht := List.mem_cons.1 ht
        · exact hbest
        · obtain rfl | ht := List.mem_cons.1 ht
          · omega
          · exact hall t (List.mem_cons_of_mem best ht)

/-- **The oldest position of some channels.** It is the origin if all of them are at the origin, and
otherwise the position of one of them that is not, with the least number of these. -/
theorem position_of_isDecimal (h : cursor.IsDecimal) (channels : List String) :
    ∃ oldest, cursor.position channels = .ok oldest
      ∧ (oldest = origin ↔ ∀ s ∈ cursor.positions channels, s = origin)
      ∧ (oldest ≠ origin → oldest ∈ cursor.positions channels
        ∧ ∀ s ∈ cursor.positions channels, s ≠ origin → decimalOf oldest ≤ decimalOf s) := by
  have hmem : ∀ s, s ∈ (cursor.positions channels).filter (· != origin)
      ↔ s ∈ cursor.positions channels ∧ s ≠ origin := by
    simp
  unfold position
  cases hp : (cursor.positions channels).filter (· != origin) with
  | nil =>
    refine ⟨origin, rfl, ?_, fun hne => absurd rfl hne⟩
    have hall : ∀ s ∈ cursor.positions channels, s = origin := by simpa using hp
    simpa using hall
  | cons s rest =>
    have htexts : ∀ t ∈ s :: rest, IsDecimalText t := fun t ht =>
      h.positions channels t ((hmem t).1 (hp ▸ ht)).1
    obtain ⟨least, hm, hleast, hall⟩ :=
      leastFrom_of_isDecimalText fun t ht => htexts t (List.mem_cons_of_mem s ht)
    have hfound := (hmem least).1 (hp ▸ hm)
    refine ⟨least, ?_, ?_, ?_⟩
    · simp [Json.integerOfText_of_isDecimalText (htexts s List.mem_cons_self), bind, Except.bind,
        hleast]
    · exact ⟨fun heq => absurd heq hfound.2, fun heq => heq least hfound.1⟩
    · intro _
      refine ⟨hfound.1, ?_⟩
      intro t ht hne
      exact hall t (hp ▸ (hmem t).2 ⟨ht, hne⟩)

end Cursor

/-! ## What the server makes of them -/

/-- The position of each channel of a subscription, as a server takes it from what it reads: from
the parameter `tt` if it is there, and from the path if not. -/
def Reading.positions? (reading : Reading) : Option (List String) :=
  match reading.segments with
  | [_, _, .names channels, _, .text timetoken] =>
    some (match reading.parameters.lookup "tt" with
      | some listed => Request.splitCommas listed
      | none => channels.map fun _ => timetoken)
  | _ => none

theorem Request.splitCommas_intercalate {positions : List String} (hne : positions ≠ [])
    (h : ∀ s ∈ positions, IsDecimalText s) :
    splitCommas (",".intercalate positions) = positions := by
  have hcut : Form.splitAt ',' (",".intercalate positions).toList
      = positions.map String.toList := by
    have hlist : (",".intercalate positions).toList
        = [','].intercalate (positions.map String.toList) := by simp
    rw [hlist]
    refine Form.splitAt_intercalate (by simpa using hne) ?_
    intro piece hm hcomma
    obtain ⟨s, hs, rfl⟩ := List.mem_map.1 hm
    exact Numeral.ne_of_isDigit ((h s hs).2.1 ',' hcomma) rfl rfl
  rw [splitCommas, hcut, List.map_map]
  simp [Function.comp_def]

/-- **The positions of a list of channels are read back from either form**, as long as the position
in the path is one of them. -/
theorem Reading.positions?_positionParameters {names positions : List String}
    {key timetoken uuid : String} (hlength : positions.length = names.length)
    (h : ∀ s ∈ positions, IsDecimalText s) (hm : timetoken ∈ positions) :
    positions? ⟨[.text "subscribe", .text key, .names names, .text "0", .text timetoken],
      Operation.positionParameters positions ++ [("uuid", uuid)]⟩ = some positions := by
  by_cases hagree : ∀ s ∈ positions, ∀ t ∈ positions, s = t
  · have hsame : names.map (fun _ => timetoken) = positions := by
      refine List.ext_getElem (by simp [hlength]) ?_
      intro i _ hi
      simpa using hagree timetoken hm positions[i] (List.getElem_mem hi)
    rw [Operation.positionParameters, if_pos hagree]
    simp [positions?, hsame]
  · have hlisted := Request.splitCommas_intercalate (List.ne_nil_of_mem hm) h
    rw [Operation.positionParameters, if_neg hagree]
    simp [positions?, hlisted]

namespace Request

variable {p : Profile} {cursor : Cursor} {fresh : Bytes} {c c' : Configuration} {op : Operation}
  {names : List String} {timeout : Json} {seconds : Binary64}

/-- The query of a subscription on valid channels. -/
theorem ofOperation_of_names (p : Profile) (cursor : Cursor) (fresh : Bytes)
    (hop : op.Names names) (hne : names ≠ [])
    (hnames : ∀ name ∈ names, IsChannelName name) :
    op.precheck = .ok ()
      ∧ Query.ofOperation p cursor fresh op = (cursor.position names).map fun timetoken =>
          .subscribe names timetoken (cursor.positions names) := by
  rw [← Query.ofSubscribe_of_isChannelName cursor hne hnames]
  cases hop with
  | one name =>
    refine ⟨?_, rfl⟩
    simp [Operation.precheck, checkChannel_of_isChannelName (hnames name List.mem_cons_self),
      Except.map]
  | listed names => exact ⟨rfl, rfl⟩
  | keys fields =>
    have hkeys : checkChannels (.obj fields)
        = checkChannels (.arr ((fields.map Prod.fst).map .str)) := by
      rw [List.map_map]
      rfl
    refine ⟨rfl, ?_⟩
    show Query.ofSubscribe cursor (.obj fields) = _
    unfold Query.ofSubscribe
    rw [hkeys]

/-- **A server gets back the position of every channel.** Let a cursor hold texts of ASCII digits
only, and let an operation subscribe to valid channels, at least one, with repetitions or not and
whether the cursor knows them or not. If its timeout resolves, its request is built, and from the
address of the request a server reads one position for each channel, in the order of the channels:
the position of the channel in the cursor, or the origin if it has none.

The position in the path is the origin if all of the positions are. Otherwise it is one of them, and
no position but the origin is a smaller number, so no channel skips ahead of its own. -/
theorem positions_read_back (p : Profile) (fresh : Bytes) (hcursor : cursor.IsDecimal)
    (hop : op.Names names) (hne : names ≠ [])
    (hnames : ∀ name ∈ names, IsChannelName name)
    (ht : c.resolveTimeout timeout op.timeoutSetting.name = (.ok seconds, c')) :
    ∃ r rest reading timetoken, build p cursor fresh c op timeout = (.ok r, c')
      ∧ r.url? = some (p.origin ++ "/" ++ rest) ∧ Reading.read? rest = some reading
      ∧ reading.segments = [.text "subscribe", .text p.subscribeKey, .names names, .text "0",
        .text timetoken]
      ∧ reading.positions? = some (names.map fun name => (cursor.get? name).getD "0")
      ∧ (timetoken = "0" ↔ ∀ name ∈ names, (cursor.get? name).getD "0" = "0")
      ∧ (timetoken ≠ "0" → (∃ name ∈ names, cursor.get? name = some timetoken)
        ∧ ∀ name ∈ names, (cursor.get? name).getD "0" ≠ "0" →
          decimalOf timetoken ≤ decimalOf ((cursor.get? name).getD "0")) := by
  obtain ⟨hprecheck, hquery⟩ := ofOperation_of_names p cursor fresh hop hne hnames
  obtain ⟨timetoken, hposition, hzero, holdest⟩ :=
    Cursor.position_of_isDecimal hcursor names
  have hbuilt : build p cursor fresh c op timeout
      = (.ok ⟨p.origin, p.uuid, p.subscribeKey, p.cipher, seconds,
        .subscribe names timetoken (cursor.positions names)⟩, c') := by
    simp [build, hprecheck, ht, hquery, hposition, Except.map]
  have hdecimal := hcursor.positions names
  -- If all positions are the origin, it is one of them, for there is a channel.
  have hm : timetoken ∈ cursor.positions names := by
    by_cases ho : timetoken = Cursor.origin
    · obtain ⟨name, hname⟩ := List.exists_mem_of_ne_nil names hne
      have hpositions := List.mem_map_of_mem (f := fun name =>
        (cursor.get? name).getD Cursor.origin) hname
      rwa [ho, ← hzero.1 ho _ hpositions]
    · exact (holdest ho).1
  obtain ⟨rest, hurl, hread⟩ := read?_url? (r := ⟨p.origin, p.uuid, p.subscribeKey, p.cipher,
    seconds, .subscribe names timetoken (cursor.positions names)⟩) (by simp)
    (by simpa [NamesChannels, Query.channels?] using hne)
  simp only [path, parameters, parameters_positions] at hread
  refine ⟨_, rest, _, timetoken, hbuilt, hurl, hread, rfl, ?_, ?_, ?_⟩
  · exact Reading.positions?_positionParameters (by simp [Cursor.positions]) hdecimal hm
  · simpa [Cursor.positions, Cursor.origin] using hzero
  · intro ho
    obtain ⟨hmem, hleast⟩ := holdest ho
    refine ⟨?_, ?_⟩
    · obtain ⟨name, hname, hposition⟩ := List.mem_map.1 hmem
      refine ⟨name, hname, ?_⟩
      cases hg : cursor.get? name with
      | none =>
        rw [hg] at hposition
        exact absurd hposition.symm ho
      | some position => simpa [hg] using hposition
    · simpa [Cursor.positions, Cursor.origin] using hleast

/-- A cursor that knows two channels, one of them by a number with leading zeros. -/
def paddedCursor : Cursor := (Cursor.empty.set "a" "0010").set "b" "9"

/-- A subscription that names a channel twice, and one that the cursor does not know. -/
def repeatedNames : List String := ["b", "a", "new", "b"]

/-- The oldest position is the least number, and every channel keeps the text of its own. -/
theorem positions_read_back_padded :
    ∃ r c rest reading,
      build awkwardProfile paddedCursor [] (Configuration.initial ⟨[]⟩ none)
        (.subscribeMulti (.arr (repeatedNames.map .str))) (.int 5) = (.ok r, c)
      ∧ r.url? = some ("http://o" ++ "/" ++ rest) ∧ Reading.read? rest = some reading
      ∧ reading.positions? = some ["9", "0010", "0", "9"]
      ∧ decimalOf "9" < decimalOf "0010" := by
  have hcursor : paddedCursor.IsDecimal :=
    (Cursor.IsDecimal.empty.set (by decide) "a").set (by decide) "b"
  have hnames : ∀ name ∈ repeatedNames, IsChannelName name := by
    simp [repeatedNames, IsChannelName]
  have hresolve := (Configuration.initial ⟨[]⟩ none).resolveTimeout_int (n := 5) (by decide)
    (by decide +kernel)
    (Operation.subscribeMulti (.arr (repeatedNames.map .str))).timeoutSetting.name
  obtain ⟨r, rest, reading, timetoken, hbuilt, hurl, hread, -, hpositions, -, -⟩ :=
    positions_read_back awkwardProfile [] hcursor (.listed repeatedNames)
      (by simp [repeatedNames]) hnames hresolve
  exact ⟨r, _, rest, reading, hbuilt, hurl, hread, hpositions, by decide⟩

end Request

end Pubsub
