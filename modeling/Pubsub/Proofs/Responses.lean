import Pubsub.Proofs.FiniteValues
import Pubsub.Proofs.IntegerTexts
import Pubsub.Retry.Outcome

/-!
# What responses are interpreted as

Whoever reads a body either accepts it, and then says what it is, or finds it malformed. There is no
third way: no body that was decoded, whatever its shape, makes an interpretation fail for another
reason. The predicate `Request.Interprets` says this together with what is known of an accepted
value, and it is carried from the parts of a body to the whole by its rules for sequences.

One conversion could fail otherwise: an infinity has no integer part, and a time query does not
catch that. Here it matters that a body was decoded, since what is decoded is finite.

What an attempt comes to is then read off: it always has a result, and the result is of the kind of
the request. Only the bare request, which is of no kind, is refused. For replies, `Classified` says
which result: it depends on the status first, then on whether the content is JSON, and then on what
the body is interpreted as.
-/

namespace Pubsub

namespace Request

/-! ## Accepted or malformed -/

/-- What is read is accepted, as a value that satisfies `Q`, or is found malformed. -/
inductive Interprets {α : Type} (Q : α → Prop) : Except Error α → Prop where
  | accepted {value : α} (h : Q value) : Interprets Q (.ok value)
  | malformed (reason : String) : Interprets Q (.error (.malformedResponse reason))

namespace Interprets

variable {α β : Type} {Q R : α → Prop} {S : β → Prop} {x : Except Error α}

/-- What is accepted satisfies what is known of accepted values. -/
theorem of_eq_ok (h : Interprets Q x) {value : α} (hx : x = .ok value) : Q value := by
  subst hx
  cases h with
  | accepted h => exact h

theorem mono (h : Interprets Q x) (hQ : ∀ value, Q value → R value) : Interprets R x := by
  cases h with
  | accepted h => exact .accepted (hQ _ h)
  | malformed reason => exact .malformed reason

/-- One reading after another: the first that finds something malformed decides. -/
theorem bind {f : α → Except Error β} (h : Interprets Q x)
    (hf : ∀ value, Q value → Interprets S (f value)) : Interprets S (x >>= f) := by
  cases h with
  | accepted h => exact hf _ h
  | malformed reason => exact .malformed reason

/-- The same for the readings of the elements of a list. -/
theorem mapM {f : α → Except Error β} (hf : ∀ value, Interprets (fun _ => True) (f value))
    (values : List α) : Interprets (fun _ => True) (values.mapM f) := by
  induction values with
  | nil => exact .accepted trivial
  | cons value rest ih =>
    rw [List.mapM_cons]
    refine (hf value).bind fun first _ => ?_
    exact ih.bind fun others _ => .accepted trivial

end Interprets

/-! ## Bodies -/

theorem interprets_publish (body : Json) :
    Interprets (fun result => result.kind = .publish
      ∧ (result.code = .ok ∨ result.code = .publishFailed)) (interpretPublish body) := by
  unfold interpretPublish
  split
  · dsimp only
    split
    · exact .accepted ⟨rfl, .inl rfl⟩
    · exact .accepted ⟨rfl, .inr rfl⟩
  · exact .malformed _

/-- **A timetoken is accepted only if it is a text of digits.** -/
theorem interprets_subscribeTimetoken (value : Json) :
    Interprets IsTimetoken (subscribeTimetoken value) := by
  have hcheck : ∀ text : String, Interprets IsTimetoken
      (if !text.toList.isEmpty && text.toList.all isDigit then Except.ok text
        else malformed ("subscribe timetoken is not numeric: " ++ (Json.str text).display)) := by
    intro text
    split
    · rename_i hdigits
      simp only [Bool.and_eq_true, Bool.not_eq_true', List.isEmpty_eq_false_iff,
        List.all_eq_true] at hdigits
      exact .accepted hdigits
    · exact .malformed _
  unfold subscribeTimetoken
  dsimp only
  split
  · exact hcheck _
  · exact hcheck _
  · exact .malformed _

theorem interprets_subscribeChannels (asked : List String) (messages : List Json)
    (named : Option Json) :
    Interprets (fun _ => True) (subscribeChannels asked messages named) := by
  unfold subscribeChannels
  split
  · dsimp only
    split
    · exact .accepted trivial
    · exact .malformed _
  · split
    · exact .accepted trivial
    · split
      · exact .accepted trivial
      · exact .malformed _

/-- The result of a subscription names a position. -/
theorem interprets_subscribe (cipher : Option Cipher) (asked : List String) (body : Json) :
    Interprets (fun result => result.kind = .subscribe ∧ result.code = .ok
      ∧ ∃ timetoken, result.timetoken = some timetoken ∧ IsTimetoken timetoken)
      (interpretSubscribe cipher asked body) := by
  unfold interpretSubscribe
  split
  · refine (interprets_subscribeTimetoken _).bind fun timetoken hdigits => ?_
    refine (interprets_subscribeChannels _ _ _).bind fun channels _ => ?_
    exact .accepted ⟨rfl, rfl, timetoken, rfl, hdigits⟩
  · exact .malformed _

theorem interprets_annotatedMessage (cipher : Option Cipher) (value : Json) :
    Interprets (fun _ => True) (annotatedMessage cipher value) := by
  unfold annotatedMessage
  split
  · split
    · exact .accepted trivial
    · exact .malformed _
  · exact .malformed _

theorem interprets_history (cipher : Option Cipher) (includeToken : Option Bool) (body : Json) :
    Interprets (fun result => result.kind = .history ∧ result.code = .ok)
      (interpretHistory cipher includeToken body) := by
  unfold interpretHistory
  split
  · dsimp only
    split
    · refine (Interprets.mapM (interprets_annotatedMessage cipher) _).bind fun delivered _ => ?_
      exact .accepted ⟨rfl, rfl⟩
    · exact .accepted ⟨rfl, rfl⟩
  · exact .malformed _

theorem interprets_hereNow (body : Json) :
    Interprets (fun result => result.kind = .hereNow ∧ result.code = .ok)
      (interpretHereNow body) := by
  unfold interpretHereNow
  split
  · split
    · exact .malformed _
    · split
      · exact .accepted ⟨rfl, rfl⟩
      · exact .malformed _
  · exact .malformed _

/-- A finite value may denote no integer, but not because it is infinite. -/
theorem toInteger_ne_of_isFinite {value : Json} (h : value.IsFinite) :
    value.toInteger ≠ .error .integerOfInfinity := by
  intro hinfinite
  cases h with
  | null => cases hinfinite
  | bool b => cases hinfinite
  | int n => cases hinfinite
  | float hx =>
    rename_i x
    cases x with
    | nan => cases hinfinite
    | infinity negative => cases hx
    | finite => cases hinfinite
  | str s =>
    change Json.integerOfText s = _ at hinfinite
    unfold Json.integerOfText at hinfinite
    split at hinfinite <;> cases hinfinite
  | arr => cases hinfinite
  | obj => cases hinfinite

theorem interprets_time {body : Json} (h : body.IsFinite) :
    Interprets (fun result => result.kind = .time ∧ result.code = .ok) (interpretTime body) := by
  unfold interpretTime
  split
  · split
    · exact .accepted ⟨rfl, rfl⟩
    · rename_i hinfinite
      exact absurd hinfinite (toInteger_ne_of_isFinite (h.item (by simp)))
    · exact .malformed _
  · exact .malformed _

/-- What is known of an accepted body: it is a result of the kind of the request, with a position if
the request subscribes, and it is a success unless a publish was rejected. -/
structure Answers (r : Request) (result : Result) : Prop where
  kind : result.kind = r.kind
  code : result.code = .ok ∨ result.code = .publishFailed ∧ r.kind = .publish
  timetoken : ∀ channels, r.query.channels? = some channels →
    ∃ timetoken, result.timetoken = some timetoken ∧ IsTimetoken timetoken

/-- **A finite body is accepted or malformed**, and what is accepted answers the request. -/
theorem interprets {r : Request} (hq : r.query ≠ .bare) {body : Json} (hb : body.IsFinite) :
    Interprets (Answers r) (r.interpret body) := by
  have hkind : r.kind = r.query.kind := rfl
  unfold interpret
  cases hquery : r.query with
  | publish publishKey channel signature message =>
    rw [hquery] at hkind
    exact (interprets_publish body).mono fun result h =>
      ⟨h.1.trans hkind.symm, h.2.imp_right fun hc => ⟨hc, hkind⟩, by simp [hquery, Query.channels?]⟩
  | subscribe channels timetoken timetokens =>
    rw [hquery] at hkind
    exact (interprets_subscribe r.cipher channels body).mono fun result h =>
      ⟨h.1.trans hkind.symm, .inl h.2.1, fun _ _ => h.2.2⟩
  | history channel limit includeToken =>
    rw [hquery] at hkind
    exact (interprets_history r.cipher includeToken body).mono fun result h =>
      ⟨h.1.trans hkind.symm, .inl h.2, by simp [hquery, Query.channels?]⟩
  | hereNow channel =>
    rw [hquery] at hkind
    exact (interprets_hereNow body).mono fun result h =>
      ⟨h.1.trans hkind.symm, .inl h.2, by simp [hquery, Query.channels?]⟩
  | time =>
    rw [hquery] at hkind
    exact (interprets_time hb).mono fun result h =>
      ⟨h.1.trans hkind.symm, .inl h.2, by simp [hquery, Query.channels?]⟩
  | bare => exact absurd hquery hq

/-! ## Attempts -/

theorem query_ne_bare_of_interpret {r : Request} {body : Json} {result : Result}
    (h : r.interpret body = .ok result) : r.query ≠ .bare := by
  intro hq
  unfold interpret at h
  rw [hq] at h
  cases h

/-- Content has a body exactly if it is JSON; no content is none. -/
theorem decodeContent_eq_ok_iff {content : Bytes} {body : Json} :
    decodeContent content = .ok body ↔ Json.decode? content = some body := by
  unfold decodeContent
  cases content with
  | nil =>
    have hnone : Json.decode? [] = none := by decide +kernel
    rw [hnone]
    constructor <;> rintro ⟨⟩
  | cons byte rest =>
    rw [if_neg (by simp)]
    cases Json.decode? (byte :: rest) with
    | none => constructor <;> rintro ⟨⟩
    | some value => simp only [Except.ok.injEq, Option.some.injEq]

/-- The body of a response is finite. -/
theorem isFinite_of_decodeContent {content : Bytes} {body : Json}
    (h : decodeContent content = .ok body) : body.IsFinite :=
  Json.isFinite_of_decode? (decodeContent_eq_ok_iff.1 h)

/-- An accepted body of a response answers the request. -/
theorem answers_of_interpret {r : Request} {content : Bytes} {body : Json} {result : Result}
    (hd : decodeContent content = .ok body) (hi : r.interpret body = .ok result) :
    Answers r result :=
  (interprets (query_ne_bare_of_interpret hi) (isFinite_of_decodeContent hd)).of_eq_ok hi

/-- **The result of an attempt is of the kind of its request.** -/
theorem kind_classify {r : Request} {outcome : Outcome} {result : Result}
    (h : r.classify outcome = .ok result) : result.kind = r.kind := by
  unfold classify at h
  split at h
  · cases h
    rfl
  · split at h
    · cases h
      rfl
    · split at h
      · cases h
        rfl
      · rename_i hd
        split at h
        · rename_i hi
          cases h
          exact (answers_of_interpret hd hi).kind
        · cases h
          rfl
        · cases h

/-- **Every attempt at a request that is not bare has a result.** -/
theorem exists_classify_eq_ok {r : Request} (hq : r.query ≠ .bare) (outcome : Outcome) :
    ∃ result, r.classify outcome = .ok result := by
  unfold classify
  split
  · exact ⟨_, rfl⟩
  · split
    · exact ⟨_, rfl⟩
    · split
      · exact ⟨_, rfl⟩
      · rename_i body hd
        have hread := interprets hq (isFinite_of_decodeContent hd)
        generalize r.interpret body = read at hread ⊢
        cases hread with
        | accepted h => exact ⟨_, rfl⟩
        | malformed reason => exact ⟨_, rfl⟩

/-- **A successful subscription names a text of digits**, unless a failure is passed off as a
success. -/
theorem timetoken_classify {r : Request} {outcome : Outcome} {result : Result}
    {channels : List String} (hq : r.query.channels? = some channels)
    (hf : ∀ text, outcome ≠ .failure .ok text) (h : r.classify outcome = .ok result)
    (hc : result.code = .ok) :
    ∃ timetoken, result.timetoken = some timetoken ∧ IsTimetoken timetoken := by
  unfold classify at h
  split at h
  · rename_i code text
    cases h
    change code = .ok at hc
    exact absurd (congrArg (Outcome.failure · text) hc) (hf text)
  · split at h
    · cases h
      cases hc
    · split at h
      · cases h
        cases hc
      · rename_i hd
        split at h
        · rename_i hi
          cases h
          exact (answers_of_interpret hd hi).timetoken channels hq
        · cases h
          cases hc
        · cases h

/-! ## Replies -/

/-- **What a reply is.** The first case that applies decides: a status that is not one of success,
content without a body, a body that is malformed; what is left are the answers. -/
inductive Classified (r : Request) (status : Int) (content : Bytes) : Result → Prop where
  /-- The server refused, and may have said why. -/
  | refused (hs : ¬ (200 ≤ status ∧ status ≤ 299)) :
    Classified r status content (.plain r.kind .httpError
      (.value ((Json.decode? content).getD .null)) (some ("HTTP status " ++ toString status)))
  /-- There is no body. -/
  | undecodable (hs : 200 ≤ status ∧ status ≤ 299) (hd : Json.decode? content = none)
    (reason : String) :
    Classified r status content (.plain r.kind .formatError (.value .null) (some reason))
  /-- The body is no answer; it is handed on as it is. -/
  | malformed (hs : 200 ≤ status ∧ status ≤ 299) {body : Json}
    (hd : Json.decode? content = some body) {reason : String}
    (hi : r.interpret body = .error (.malformedResponse reason)) :
    Classified r status content (.plain r.kind .formatError (.value body) (some reason))
  /-- The body is an answer: a success, or the rejection of a publish. -/
  | answered (hs : 200 ≤ status ∧ status ≤ 299) {body : Json}
    (hd : Json.decode? content = some body) {result : Result} (hi : r.interpret body = .ok result)
    (hc : result.code = .ok ∨ result.code = .publishFailed ∧ r.kind = .publish) :
    Classified r status content result

theorem isSuccessStatus_iff {status : Int} :
    isSuccessStatus status = true ↔ 200 ≤ status ∧ status ≤ 299 := by
  simp [isSuccessStatus]

/-- The body of a refusal, which is null unless the content is JSON. -/
theorem match_decodeContent (content : Bytes) :
    (match decodeContent content with
      | .ok body => body
      | .error _ => .null) = (Json.decode? content).getD .null := by
  cases hd : Json.decode? content with
  | some body => rw [decodeContent_eq_ok_iff.2 hd]; rfl
  | none =>
    split
    · rename_i hbody
      rw [decodeContent_eq_ok_iff.1 hbody] at hd
      cases hd
    · rfl

/-- **No reply escapes classification.** Whatever the status and the bytes of a reply to a request
that is not bare, it has a result, of the kind of the request, and the result is the one that the
status, the body and its interpretation call for. -/
theorem exists_classified {r : Request} (hq : r.query ≠ .bare) (status : Int) (content : Bytes) :
    ∃ result, r.classify (.reply status content) = .ok result ∧ result.kind = r.kind
      ∧ Classified r status content result := by
  obtain ⟨result, hresult⟩ := exists_classify_eq_ok hq (.reply status content)
  refine ⟨result, hresult, kind_classify hresult, ?_⟩
  unfold classify at hresult
  dsimp only at hresult
  split at hresult
  · rename_i hs
    rw [Bool.not_eq_true', Bool.eq_false_iff, ne_eq, isSuccessStatus_iff] at hs
    cases hresult
    have hrefused : Classified r status content _ := .refused hs
    rw [← match_decodeContent] at hrefused
    exact hrefused
  · rename_i hs
    rw [Bool.not_eq_true', Bool.not_eq_false, isSuccessStatus_iff] at hs
    split at hresult
    · rename_i e he
      cases hresult
      refine .undecodable hs (Option.eq_none_iff_forall_ne_some.2 fun body hd => ?_) _
      rw [decodeContent_eq_ok_iff.2 hd] at he
      cases he
    · rename_i body hd
      have hbody := decodeContent_eq_ok_iff.1 hd
      split at hresult
      · rename_i hi
        cases hresult
        exact .answered hs hbody hi (answers_of_interpret hd hi).code
      · rename_i reason hi
        cases hresult
        exact .malformed hs hbody hi
      · cases hresult

/-- A history of two records about encrypted messages. -/
def recordsRequest : Request :=
  ⟨"http://o", "me", "sub", some ⟨Cipher.deriveKey "k", true⟩, 10, .history "a" 2 (some true)⟩

/-- A history of records is malformed as a whole if one of the records is a number, whatever is
named after them. -/
theorem exists_classified_records :
    recordsRequest.query ≠ .bare
    ∧ ∃ result, recordsRequest.classify (.reply 299 (utf8Bytes " [[2.5e3], null, 17]")) = .ok result
      ∧ result.kind = .history ∧ result.code = .formatError
      ∧ recordsRequest.Classified 299 (utf8Bytes " [[2.5e3], null, 17]") result := by
  have hcode : (recordsRequest.classify
      (.reply 299 (utf8Bytes " [[2.5e3], null, 17]"))).toOption.map Result.code
      = some .formatError := by decide +kernel
  refine ⟨nofun, ?_⟩
  obtain ⟨result, hresult, hkind, hclassified⟩ := exists_classified
    (r := recordsRequest) nofun 299 (utf8Bytes " [[2.5e3], null, 17]")
  rw [hresult] at hcode
  exact ⟨result, hresult, hkind, Option.some.inj hcode, hclassified⟩

end Request

end Pubsub
