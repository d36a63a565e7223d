import Mathlib.Data.List.Forall2
import Pubsub.Proofs.Responses

/-!
# What becomes of the messages in a response

The body of a response to a subscription or a history begins with a list of messages. Whether it is
accepted depends on what stands around the messages, and, if records about messages were asked for,
on their being records. What each of them is handed on as depends on itself and the cipher alone.
-/

namespace Pubsub

namespace Request

/-! ## Single messages -/

/-- What the fields of a record about a message are handed on as. -/
def recordFields (cipher : Option Cipher) (fields : List (String × Json)) :
    List (String × Delivered) :=
  fields.map fun (key, value) =>
    (key, if key = "message" then Delivered.of cipher value else .value value)

/-- Does the request ask for records about messages, and not for the messages alone? -/
def asksForRecords (r : Request) : Prop :=
  ∃ channel limit, r.query = .history channel limit (some true)

/-- What a value is handed on as if it stands where a message is expected. -/
inductive HandsOn (r : Request) : Json → Message → Prop where
  | plain {value : Json} (hr : ¬ r.asksForRecords) :
      HandsOn r value (.plain (Delivered.of r.cipher value))
  | record {fields : List (String × Json)} (hr : r.asksForRecords)
      (hm : (Json.field? fields "message").isSome = true) :
      HandsOn r (.obj fields) (.annotated (recordFields r.cipher fields))

/-! ## Lists of messages -/

/-- The body is a response to the request, and these are its messages. -/
inductive Carries (r : Request) (messages : List Json) : Json → Prop where
  | subscribe {channels names : List String} {timetoken : String} {timetokens : List String}
      {named : Json} {t : String} {rest : List Json}
      (hq : r.query = .subscribe channels timetoken timetokens)
      (ht : subscribeTimetoken named = .ok t)
      (hn : subscribeChannels channels messages rest.head? = .ok names) :
      Carries r messages (.arr (.arr messages :: named :: rest))
  | history {channel : String} {limit : Int} {includeToken : Option Bool} {rest : List Json}
      (hq : r.query = .history channel limit includeToken) (hi : includeToken ≠ some true) :
      Carries r messages (.arr (.arr messages :: rest))
  | records {channel : String} {limit : Int} {rest : List Json}
      (hq : r.query = .history channel limit (some true))
      (hm : ∀ message ∈ messages, ∃ fields, message = .obj fields
        ∧ (Json.field? fields "message").isSome = true) :
      Carries r messages (.arr (.arr messages :: rest))

variable {r : Request} {messages : List Json} {body : Json}

theorem annotatedMessage_obj {cipher : Option Cipher} {fields : List (String × Json)}
    (h : (Json.field? fields "message").isSome = true) :
    annotatedMessage cipher (.obj fields) = .ok (.annotated (recordFields cipher fields)) := by
  rw [annotatedMessage, if_pos h]
  rfl

/-- Only records are accepted where records are expected. -/
theorem annotatedMessage_eq_ok {cipher : Option Cipher} {value : Json} {message : Message}
    (h : annotatedMessage cipher value = .ok message) :
    ∃ fields, value = .obj fields ∧ (Json.field? fields "message").isSome = true := by
  unfold annotatedMessage at h
  split at h
  · split at h
    · rename_i fields hm
      exact ⟨fields, rfl, hm⟩
    · cases h
  · cases h

/-- Records are handed on one by one. -/
theorem mapM_annotatedMessage (hr : r.asksForRecords) (h : ∀ message ∈ messages, ∃ fields,
    message = .obj fields ∧ (Json.field? fields "message").isSome = true) :
    ∃ delivered, messages.mapM (annotatedMessage r.cipher) = .ok delivered
      ∧ List.Forall₂ r.HandsOn messages delivered := by
  induction messages with
  | nil => exact ⟨[], rfl, .nil⟩
  | cons message others ih =>
    obtain ⟨fields, rfl, hm⟩ := h message List.mem_cons_self
    obtain ⟨delivered, hothers, hall⟩ := ih fun m hm => h m (List.mem_cons_of_mem _ hm)
    refine ⟨_ :: delivered, ?_, .cons (.record hr hm) hall⟩
    rw [List.mapM_cons, annotatedMessage_obj hm, hothers]
    rfl

/-- **The messages of a response are handed on one by one**, in their order. -/
theorem interpret_of_carries (h : r.Carries messages body) :
    ∃ result delivered, r.interpret body = .ok result ∧ result.messages = some delivered
      ∧ List.Forall₂ r.HandsOn messages delivered := by
  have hplain : ¬ r.asksForRecords → List.Forall₂ r.HandsOn messages
      (messages.map fun message => .plain (Delivered.of r.cipher message)) := by
    intro hr
    rw [List.forall₂_map_right_iff, List.forall₂_same]
    exact fun message _ => .plain hr
  cases h with
  | subscribe hq ht hn =>
    have hr : ¬ r.asksForRecords := by
      rintro ⟨channel, limit, hq'⟩
      rw [hq] at hq'
      cases hq'
    simp only [interpret, hq, interpretSubscribe, ht, hn, bind, Except.bind, pure, Except.pure]
    exact ⟨_, _, rfl, rfl, hplain hr⟩
  | history hq hi =>
    have hr : ¬ r.asksForRecords := by
      rintro ⟨channel, limit, hq'⟩
      rw [hq] at hq'
      cases hq'
      exact hi rfl
    simp only [interpret, hq, interpretHistory, if_neg hi, bind, Except.bind, pure, Except.pure]
    exact ⟨_, _, rfl, rfl, hplain hr⟩
  | records hq hm =>
    obtain ⟨delivered, hdelivered, hall⟩ := mapM_annotatedMessage ⟨_, _, hq⟩ hm
    simp only [interpret, hq, interpretHistory, if_true, hdelivered, bind, Except.bind, pure,
      Except.pure]
    exact ⟨_, delivered, rfl, rfl, hall⟩

/-- A list is mapped without an error only if each of its elements is. -/
theorem exists_of_mapM_eq_ok {α β : Type} {f : α → Except Error β} {values : List α}
    {found : List β} (h : values.mapM f = .ok found) : ∀ value ∈ values, ∃ y, f value = .ok y := by
  induction values generalizing found with
  | nil => simp
  | cons value rest ih =>
    rw [List.mapM_cons] at h
    obtain ⟨y, hy, h⟩ := bind_eq_ok_iff.1 h
    obtain ⟨ys, hys, -⟩ := bind_eq_ok_iff.1 h
    simpa using ⟨⟨y, hy⟩, ih hys⟩

/-- **Every body that is accepted for a subscription or a history carries messages.** -/
theorem exists_carries {result : Result} (hk : r.kind = .subscribe ∨ r.kind = .history)
    (h : r.interpret body = .ok result) : ∃ messages, r.Carries messages body := by
  unfold interpret at h
  unfold kind at hk
  cases hq : r.query with
  | subscribe channels timetoken timetokens =>
    rw [hq] at h
    simp only [interpretSubscribe] at h
    split at h
    · obtain ⟨t, ht, h⟩ := bind_eq_ok_iff.1 h
      obtain ⟨names, hn, -⟩ := bind_eq_ok_iff.1 h
      exact ⟨_, .subscribe hq ht hn⟩
    · cases h
  | history channel limit includeToken =>
    rw [hq] at h
    simp only [interpretHistory] at h
    split at h
    · by_cases hi : includeToken = some true
      · rw [if_pos hi] at h
        rw [hi] at hq
        obtain ⟨delivered, hd, -⟩ := bind_eq_ok_iff.1 h
        refine ⟨_, .records hq fun message hm => ?_⟩
        obtain ⟨handed, hhanded⟩ := exists_of_mapM_eq_ok hd message hm
        exact annotatedMessage_eq_ok hhanded
      · exact ⟨_, .history hq hi⟩
    · cases h
  | _ =>
    rw [hq] at hk
    simp [Query.kind] at hk

end Request

end Pubsub
