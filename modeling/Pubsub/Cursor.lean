import Pubsub.Json.Convert

/-!
# Positions in the message stream

A cursor holds, for each channel that a successful subscribe has named, the timetoken from which the
next one continues. A successful response sets the timetoken of all its channels at once, whatever
they were before; the server alone decides on order. A channel without a position subscribes from
now, which on the wire is the timetoken `origin`.

`Cursor.get?` is the view of a cursor as a partial function, and the lemmas below say what each
operation does to it.
-/

namespace Pubsub

/-- The position of each channel that has one. No channel occurs twice. -/
structure Cursor where
  /-- Channels and their timetokens. -/
  entries : List (String × String)
deriving DecidableEq, Repr, Inhabited

namespace Cursor

/-- The timetoken that means from now. -/
def origin : String := "0"

/-- The cursor of a new session. -/
def empty : Cursor := ⟨[]⟩

/-- The position of a channel. -/
def get? (cursor : Cursor) (channel : String) : Option String :=
  (cursor.entries.find? (·.1 == channel)).map (·.2)

/-- Has the channel a position? -/
def contains (cursor : Cursor) (channel : String) : Bool := (cursor.get? channel).isSome

/-- The number of channels with a position. -/
def size (cursor : Cursor) : Nat := cursor.entries.length

/-- The cursor with one channel at `timetoken`. -/
def set (cursor : Cursor) (channel timetoken : String) : Cursor :=
  ⟨(channel, timetoken) :: cursor.entries.filter (·.1 != channel)⟩

/-- The cursor with every one of the channels at `timetoken`. -/
def advance (cursor : Cursor) (channels : List String) (timetoken : String) : Cursor :=
  channels.foldl (fun cursor channel => cursor.set channel timetoken) cursor

/-- The cursor without positions for the channels. -/
def clear (cursor : Cursor) (channels : List String) : Cursor :=
  ⟨cursor.entries.filter fun entry => !channels.contains entry.1⟩

/-- The timetoken of each channel in turn. -/
def positions (cursor : Cursor) (channels : List String) : List String :=
  channels.map fun channel => (cursor.get? channel).getD origin

/-- The first of the texts that denotes the least integer, with that integer; `best` is the least so
far. -/
def leastFrom (best : String × Int) : List String → Except Error String
  | [] => .ok best.1
  | s :: rest => do
    let n ← Json.integerOfText s
    leastFrom (if n < best.2 then (s, n) else best) rest

/-- The oldest position among those of the channels, `origin` if none has one. The positions are
compared as integers. -/
def position (cursor : Cursor) (channels : List String) : Except Error String :=
  match (cursor.positions channels).filter (· != origin) with
  | [] => .ok origin
  | s :: rest => do
    let n ← Json.integerOfText s
    leastFrom (s, n) rest

/-- The positions in the order of the channel names. -/
def sorted (cursor : Cursor) : List (String × String) :=
  cursor.entries.mergeSort fun a b => decide (a.1 ≤ b.1)

/-! ## The view -/

@[simp] theorem get?_empty (channel : String) : empty.get? channel = none := rfl

/-- Setting a channel sets that channel and no other. -/
theorem get?_set (cursor : Cursor) (channel timetoken other : String) :
    (cursor.set channel timetoken).get? other
      = if other = channel then some timetoken else cursor.get? other := by
  by_cases h : other = channel
  · subst h
    simp [get?, set]
  · have h' : ¬ channel = other := fun e => h e.symm
    simp only [get?, set, List.find?_cons, h, if_false, beq_eq_false_iff_ne.2 h']
    congr 1
    induction cursor.entries with
    | nil => rfl
    | cons entry rest ih =>
      by_cases he : entry.1 = channel
      · simp [he, h', ih]
      · by_cases ho : entry.1 = other
        · simp [ho, h]
        · simp [he, ho, ih]

/-- **A successful response sets all its channels and no others.** -/
theorem get?_advance (cursor : Cursor) (channels : List String) (timetoken other : String) :
    (cursor.advance channels timetoken).get? other
      = if other ∈ channels then some timetoken else cursor.get? other := by
  induction channels generalizing cursor with
  | nil => simp [advance]
  | cons channel rest ih =>
    have step : cursor.advance (channel :: rest) timetoken
        = (cursor.set channel timetoken).advance rest timetoken := rfl
    rw [step, ih, get?_set]
    by_cases h1 : other ∈ rest <;> by_cases h2 : other = channel <;> simp [h1, h2]

/-- Clearing channels gives no channel a position. -/
theorem get?_of_get?_clear {cursor : Cursor} {channels : List String} {channel position : String}
    (h : (cursor.clear channels).get? channel = some position) :
    cursor.get? channel = some position := by
  obtain ⟨entry, he, rfl⟩ := Option.map_eq_some_iff.1 h
  have hm := List.mem_of_find?_eq_some he
  have hk : entry.1 = channel := by simpa using List.find?_some he
  have hkept : !channels.contains channel := hk ▸ (List.mem_filter.1 hm).2
  -- No entry of this channel was cleared, so the first of them is still the first.
  have hfind : (cursor.clear channels).entries.find? (·.1 == channel)
      = cursor.entries.find? (·.1 == channel) := by
    show List.find? _ (cursor.entries.filter fun entry => !channels.contains entry.1) = _
    rw [List.find?_filter]
    congr 1
    funext other
    by_cases ho : other.1 = channel
    · subst ho
      simpa using hkept
    · simp [ho]
  unfold get?
  rw [← hfind, he]
  rfl

end Cursor

end Pubsub
