import Pubsub.Proofs.CycleSteps
import Pubsub.Proofs.Genuine
import Pubsub.Proofs.Responses

/-!
# Positions and the subscriptions built from them

The position of a channel is whatever timetoken the latest successful response named for it, and a
response is not successful unless its timetoken is a text of digits. So every position that a cursor
can come to hold is such a text. That is the invariant (`Ledger.HasTimetokens`), and it couples what
one operation accepts with what the next one needs: a subscription compares the positions of its
channels as integers, and cannot be built if one of them denotes none.

Whether it can be built is therefore a question about digits. It can, exactly if the positions of
its channels consist of decimal digits and are not too long.
-/

namespace Pubsub

variable {Handler : Type}

/-! ## The positions in a ledger -/

/-- Every position of the session is a text of digits. -/
def Session.HasTimetokens (s : Session) : Prop :=
  ∀ channel position, s.cursor.get? channel = some position → IsTimetoken position

namespace Ledger

/-- Every position of every session is a text of digits. -/
def HasTimetokens (l : Ledger Handler) : Prop := ∀ s ∈ l.sessions, s.HasTimetokens

namespace HasTimetokens

variable {l l' : Ledger Handler} {i : Nat} {s t : Session}

theorem empty : (Ledger.empty : Ledger Handler).HasTimetokens := by rintro s ⟨⟩

theorem of_getElem? (h : l.HasTimetokens) (hs : l.sessions[i]? = some s) : s.HasTimetokens :=
  h s (List.mem_of_getElem? hs)

theorem set (h : l.HasTimetokens) (ht : t.HasTimetokens) :
    ∀ s ∈ l.sessions.set i t, s.HasTimetokens := by
  intro s hs
  rcases List.mem_or_eq_of_mem_set hs with hs | rfl
  · exact h s hs
  · exact ht

/-- A session may be rewritten freely as long as its cursor stays. -/
theorem set_of_cursor (h : l.HasTimetokens) (hs : l.sessions[i]? = some s)
    (hc : t.cursor = s.cursor) : ∀ s ∈ l.sessions.set i t, s.HasTimetokens := by
  refine h.set ?_
  intro channel position hp
  rw [hc] at hp
  exact h.of_getElem? hs channel position hp

/-- A step of a cycle keeps the positions of its session texts of digits, if it was fed a genuine
outcome. -/
theorem after {c : Nat} {call : Call Handler} {step : CycleStep} {now : Binary64}
    {fed : Option Outcome} (h : l.HasTimetokens) (hc : l.callOn? c = some (call, s))
    (hP : ∀ o, fed = some o → o.IsGenuine)
    (hr : call.cycle.resume? s.cursor now fed = some step) : (s.after step).HasTimetokens := by
  have hs := h.of_getElem? (callOn?_eq_some_iff.1 hc).2
  intro channel position hp
  change step.cursor.get? channel = some position at hp
  rcases Cycle.cursor_of_resume? hr with heq | ⟨outcome, hfed, heq | hmoved⟩
  · rw [heq] at hp
    exact hs channel position hp
  · rw [heq] at hp
    exact hs channel position hp
  · obtain ⟨result, channels, hclassify, hok, hchannels, heq⟩ := hmoved
    obtain ⟨timetoken, ht, hdigits⟩ :=
      Request.timetoken_classify hchannels (hP outcome hfed).ne_success hclassify hok
    rw [heq, ht, Cursor.get?_advance] at hp
    split at hp
    · cases hp
      exact hdigits
    · exact hs channel position hp

/-- **Every entry that is fed genuine outcomes keeps the positions texts of digits.** -/
theorem entry (h : l.HasTimetokens) (he : Entry Outcome.IsGenuine l l') : l'.HasTimetokens := by
  cases he with
  | blank => exact h
  | opened hn =>
    intro s hs
    rcases List.mem_append.1 hs with hs | hs
    · exact h s hs
    · rw [List.mem_singleton.1 hs]
      intro channel position hp
      rw [hn.cursor] at hp
      cases hp
  | changed hs change ht =>
    obtain ⟨-, ht⟩ := Session.set_eq_ok ht
    exact h.set_of_cursor hs (by rw [ht])
  | cleared hs cursor hkept =>
    refine h.set ?_
    intro channel position hp
    exact h.of_getElem? hs channel position (hkept channel position hp)
  | closed hs => exact h.set_of_cursor hs rfl
  | claimed hs ht =>
    obtain ⟨-, -, rfl⟩ := (Session.claim_eq_ok_iff _ _).1 ht
    exact h.set_of_cursor hs rfl
  | unbuilt hs hb => exact h.set_of_cursor hs rfl
  | accepted hs hb request callback => exact h
  | resumed now fed hc hP hr => exact h.set (h.after hc hP hr)
  | @ended c call s step outcome now fed hc hu hP hr ho =>
    rw [settle_setCall]
    have hreleased : ((s.after step).release outcome).HasTimetokens := h.after hc hP hr
    exact h.set hreleased
  | abandoned hc hu => exact h.set_of_cursor (callOn?_eq_some_iff.1 hc).2 rfl

end HasTimetokens

end Ledger

/-- **Every position of a reachable cursor is a text of digits**, in a world that gives genuine
outcomes. -/
theorem Client.hasTimetokens {w : Client Handler} (h : ReachableBy Action.IsGenuine w) :
    w.ledger.HasTimetokens :=
  ReachableBy.ledger feeds_isGenuine .empty (fun h he => h.entry he) h

end Pubsub
