import Pubsub.Proofs.PercentCoding
import Pubsub.Proofs.Subscribing

/-!
# Addresses are read back

A server takes an address apart below its origin: it cuts the path off at the first question mark,
cuts the path into segments at slashes, cuts the channels of a subscription apart at commas, and
decodes the pieces only then. `Reading.read?` does this, and knows nothing of how addresses are
written.

What it should find there is said by `Operation.Conveys`, for each kind of operation and without
any reference to addresses. That it does find it rests on one fact about coding: a separator never
occurs in a coded piece. It can occur in every text that is coded, and this is why cutting has to
come before decoding.
-/

namespace Pubsub

/-! ## What a server reads -/

/-- What is read off an address below its origin. -/
structure Reading where
  segments : List Segment
  parameters : List (String × String)
deriving DecidableEq, Repr

namespace Reading

/-- A piece of a path as one text. -/
def text? (piece : List Char) : Option Segment :=
  (Percent.decode? (String.ofList piece)).map .text

/-- A piece of a path as a list of names. -/
def names? (piece : List Char) : Option Segment :=
  ((Form.splitAt ',' piece).mapM fun name => Percent.decode? (String.ofList name)).map .names

/-- The segments of a path. The third one of a subscription is a list of names. -/
def segments? (path : List Char) : Option (List Segment) :=
  match Form.splitAt '/' path with
  | kind :: key :: third :: rest =>
    if kind = "subscribe".toList then do
      return (← text? kind) :: (← text? key) :: (← names? third) :: (← rest.mapM text?)
    else (kind :: key :: third :: rest).mapM text?
  | pieces => pieces.mapM text?

/-- What a server reads of the part of an address below its origin. -/
def read? (rest : String) : Option Reading := do
  let path := rest.toList.takeWhile (· != '?')
  let query := (rest.toList.dropWhile (· != '?')).drop 1
  return ⟨← segments? path, ← Form.decode? (String.ofList query)⟩

end Reading

/-! ## What an operation has to tell -/

/-- A message is sent as this text: its own compact text, or that of what it is encrypted to. -/
def Profile.Serializes (p : Profile) (fresh : Bytes) (message : Json) (serialized : String) :
    Prop :=
  match p.cipher with
  | none => message.encode = .ok serialized
  | some cipher => ∃ text, cipher.encrypt fresh message = .ok text
    ∧ (Json.str text).encode = .ok serialized

/-- A publish carries this signature: a zero if there is no secret key. -/
def Profile.Signs (p : Profile) (channel serialized signature : String) : Prop :=
  match p.secretKey with
  | none => signature = "0"
  | some secretKey =>
    p.scheme.sign ⟨p.publishKey, p.subscribeKey, secretKey, channel, serialized⟩ = .ok signature

namespace Operation

/-- The operation is a subscription to these channels. Several are given by a list of names, or by
an object that has them as its keys. -/
inductive Names : Operation → List String → Prop where
  | one (name : String) : (subscribe (.str name)).Names [name]
  | listed (names : List String) : (subscribeMulti (.arr (names.map .str))).Names names
  | keys (fields : List (String × Json)) :
      (subscribeMulti (.obj fields)).Names (fields.map Prod.fst)

/-- The position of each channel is sent if they are not all the same. -/
def positionParameters (positions : List String) : List (String × String) :=
  if ∀ s ∈ positions, ∀ t ∈ positions, s = t then [] else [("tt", ",".intercalate positions)]

/-- An argument that is given says whether timetokens are to be included. -/
def tokenParameters : Json → List (String × String)
  | .null => []
  | value => [("include_token", if value.isTruthy then "true" else "false")]

/-- What an operation has to tell the server, from a profile and a cursor. -/
inductive Conveys (p : Profile) (cursor : Cursor) (fresh : Bytes) : Operation → Reading → Prop where
  | publish {channel serialized signature : String} {message : Json}
      (hm : p.Serializes fresh message serialized) (hs : p.Signs channel serialized signature) :
      Conveys p cursor fresh (.publish (.str channel) message)
        ⟨[.text "publish", .text p.publishKey, .text p.subscribeKey, .text signature,
          .text channel, .text "0", .text serialized], [("uuid", p.uuid)]⟩
  | subscribe {op : Operation} {names : List String} {timetoken : String} (hn : op.Names names)
      (ht : cursor.position names = .ok timetoken) :
      Conveys p cursor fresh op
        ⟨[.text "subscribe", .text p.subscribeKey, .names names, .text "0", .text timetoken],
          positionParameters (cursor.positions names) ++ [("uuid", p.uuid)]⟩
  | history {channel : String} {limit : Json} {n : Int} (hl : limit.toInteger = .ok n) :
      Conveys p cursor fresh (.history (.str channel) limit)
        ⟨[.text "v2", .text "history", .text "sub-key", .text p.subscribeKey, .text "channel",
          .text channel], [("count", toString n), ("uuid", p.uuid)]⟩
  | historyEx {channel : String} {limit includeToken : Json} {n : Int}
      (hl : limit.toInteger = .ok n) :
      Conveys p cursor fresh (.historyEx (.str channel) limit includeToken)
        ⟨[.text "v2", .text "history", .text "sub-key", .text p.subscribeKey, .text "channel",
          .text channel],
          ("count", toString n) :: tokenParameters includeToken ++ [("uuid", p.uuid)]⟩
  | hereNow {channel : String} :
      Conveys p cursor fresh (.hereNow (.str channel))
        ⟨[.text "v2", .text "presence", .text "sub-key", .text p.subscribeKey, .text "channel",
          .text channel], [("uuid", p.uuid)]⟩
  | time : Conveys p cursor fresh .time ⟨[.text "time", .text "0"], [("uuid", p.uuid)]⟩

end Operation

/-! ## Reading what was written -/

/-- A character of a joined text is the separator or a character of a piece. -/
theorem mem_intercalate {separator c : Char} {pieces : List (List Char)}
    (h : c ∈ [separator].intercalate pieces) : c = separator ∨ ∃ piece ∈ pieces, c ∈ piece := by
  induction pieces with
  | nil => simp at h
  | cons piece rest ih =>
    cases rest with
    | nil =>
      rw [List.intercalate_singleton] at h
      exact Or.inr ⟨piece, List.mem_cons_self, h⟩
    | cons next others =>
      rw [List.intercalate_cons_cons, List.mem_append, List.mem_append, List.mem_singleton] at h
      obtain (h | h) | h := h
      · exact Or.inr ⟨piece, List.mem_cons_self, h⟩
      · exact Or.inl h
      · obtain h | ⟨other, hm, hc⟩ := ih h
        · exact Or.inl h
        · exact Or.inr ⟨other, List.mem_cons_of_mem piece hm, hc⟩

namespace Segment

theorem toList_encode_names (names : List String) :
    (Segment.names names).encode.toList
      = [','].intercalate (names.map fun name => (Percent.encode name).toList) := by
  simp [encode, Function.comp_def]

/-- **A coded segment contains no separator** but the commas between names. -/
theorem not_mem_encode (segment : Segment) {c : Char} (hc : ¬ Percent.IsPlain c)
    (hcomma : c ≠ ',') : c ∉ segment.encode.toList := by
  cases segment with
  | text s => exact Percent.not_mem_encode hc s
  | names list =>
    rw [toList_encode_names]
    intro h
    obtain rfl | ⟨piece, hm, hmem⟩ := mem_intercalate h
    · exact hcomma rfl
    · obtain ⟨name, -, rfl⟩ := List.mem_map.1 hm
      exact Percent.not_mem_encode hc name hmem

end Segment

namespace Reading

@[simp] theorem text?_encode (s : String) :
    text? (Segment.text s).encode.toList = some (.text s) := by
  simp [text?, Segment.encode, Percent.decode?_encode]

theorem names?_encode {names : List String} (hne : names ≠ []) :
    names? (Segment.names names).encode.toList = some (.names names) := by
  have hcomma := Percent.not_isPlain_separators ',' (by decide)
  have hcut : Form.splitAt ',' (Segment.names names).encode.toList
      = names.map fun name => (Percent.encode name).toList := by
    rw [Segment.toList_encode_names]
    refine Form.splitAt_intercalate (by simpa using hne) ?_
    intro piece hm
    obtain ⟨name, -, rfl⟩ := List.mem_map.1 hm
    exact Percent.not_mem_encode hcomma name
  have hsome : names.mapM (fun name => some name) = some names := by
    simpa using List.mapM_pure (m := Option) (l := names) (f := id)
  rw [names?, hcut, List.mapM_map]
  simp [Function.comp_def, Percent.decode?_encode, hsome]

/-- The words that paths begin with, other than that of a subscription. -/
theorem encode_ne_subscribe : ∀ kind ∈ ["publish", "v2", "time"],
    (Segment.text kind).encode.toList ≠ "subscribe".toList := by
  decide +kernel

/-- A path of texts is read back, if it does not begin like a subscription. -/
theorem segments?_of_texts {path : List Char} {kind : String} {texts : List String}
    (hcut : Form.splitAt '/' path
      = (kind :: texts).map fun s => (Segment.text s).encode.toList)
    (hkind : kind ∈ ["publish", "v2", "time"]) :
    segments? path = some ((kind :: texts).map .text) := by
  have hread : ((kind :: texts).map fun s => (Segment.text s).encode.toList).mapM text?
      = some ((kind :: texts).map .text) := by
    rw [List.mapM_map]
    simpa [Function.comp_def] using
      List.mapM_pure (m := Option) (l := kind :: texts) (f := Segment.text)
  rw [segments?, hcut]
  split
  · rename_i heq
    obtain ⟨rfl, -⟩ := List.cons.inj heq
    rw [if_neg (encode_ne_subscribe kind hkind), ← heq]
    exact hread
  · exact hread

/-- The path of a subscription is read back. -/
theorem segments?_of_subscribe {path : List Char} {key timetoken : String} {names : List String}
    (hne : names ≠ [])
    (hcut : Form.splitAt '/' path = [Segment.text "subscribe", .text key, .names names, .text "0",
      .text timetoken].map fun segment => segment.encode.toList) :
    segments? path = some [.text "subscribe", .text key, .names names, .text "0",
      .text timetoken] := by
  have hkind : (Segment.text "subscribe").encode.toList = "subscribe".toList := by
    decide +kernel
  rw [segments?, hcut]
  simp only [List.map_cons, List.map_nil]
  rw [if_pos hkind, text?_encode, text?_encode, names?_encode hne]
  simp only [List.mapM_cons, List.mapM_nil, text?_encode]
  rfl

end Reading

namespace Request

variable {r : Request}

/-- The names of channels of a subscription are not none. -/
def NamesChannels (r : Request) : Prop :=
  ∀ channels, r.query.channels? = some channels → channels ≠ []

/-- The coded path of a request. -/
def codedPath (r : Request) : String := "/".intercalate (r.path.map Segment.encode)

/-- The path of any other request than a subscription is a list of texts, and begins with a word
that says so. -/
theorem path_eq_texts (hq : r.query ≠ .bare) (hs : r.query.channels? = none) :
    ∃ kind texts, kind ∈ ["publish", "v2", "time"]
      ∧ r.path = (kind :: texts).map Segment.text := by
  unfold path
  cases hquery : r.query with
  | bare => exact absurd hquery hq
  | subscribe channels timetoken timetokens => simp [hquery, Query.channels?] at hs
  | publish publishKey channel signature message =>
    exact ⟨"publish", [publishKey, r.subscribeKey, signature, channel, "0", message], by decide,
      rfl⟩
  | history channel limit includeToken =>
    exact ⟨"v2", ["history", "sub-key", r.subscribeKey, "channel", channel], by decide, rfl⟩
  | hereNow channel =>
    exact ⟨"v2", ["presence", "sub-key", r.subscribeKey, "channel", channel], by decide, rfl⟩
  | time => exact ⟨"time", ["0"], by decide, rfl⟩

/-- **The segments of a path are read back.** -/
theorem segments?_codedPath (hq : r.query ≠ .bare) (hn : r.NamesChannels) :
    Reading.segments? r.codedPath.toList = some r.path := by
  have hslash := Percent.not_isPlain_separators '/' (by decide)
  have hpath : r.path ≠ [] := by
    unfold path
    cases hquery : r.query with
    | bare => exact absurd hquery hq
    | _ => simp
  have hcut : Form.splitAt '/' r.codedPath.toList
      = r.path.map fun segment => segment.encode.toList := by
    have hlist : r.codedPath.toList
        = ['/'].intercalate (r.path.map fun segment => segment.encode.toList) := by
      simp [codedPath, Function.comp_def]
    rw [hlist]
    refine Form.splitAt_intercalate (by simpa using hpath) ?_
    intro piece hm
    obtain ⟨segment, -, rfl⟩ := List.mem_map.1 hm
    exact segment.not_mem_encode hslash (by decide)
  cases hchannels : r.query.channels? with
  | none =>
    obtain ⟨kind, texts, hkind, htexts⟩ := path_eq_texts hq hchannels
    rw [htexts] at hcut ⊢
    exact Reading.segments?_of_texts (by rw [hcut, List.map_map]; rfl) hkind
  | some channels =>
    have hne : channels ≠ [] := hn channels hchannels
    unfold path at hcut ⊢
    cases hquery : r.query with
    | subscribe names timetoken timetokens =>
      rw [hquery] at hchannels hcut
      obtain rfl : names = channels := Option.some.inj hchannels
      exact Reading.segments?_of_subscribe hne hcut
    | _ =>
      rw [hquery] at hchannels
      cases hchannels

/-- **What a request tells is read off its address**, below its origin. -/
theorem read?_url? (hq : r.query ≠ .bare) (hn : r.NamesChannels) :
    ∃ rest, r.url? = some (r.origin ++ "/" ++ rest)
      ∧ Reading.read? rest = some ⟨r.path, r.parameters⟩ := by
  have hmark := Percent.not_isPlain_separators '?' (by decide)
  have hparameters : r.parameters ≠ [] := by
    unfold parameters
    cases hquery : r.query with
    | bare => exact absurd hquery hq
    | _ => simp
  have hplain : ∀ c ∈ r.codedPath.toList, (c != '?') = true := by
    intro c hc
    have hlist : r.codedPath.toList
        = ['/'].intercalate (r.path.map fun segment => segment.encode.toList) := by
      simp [codedPath, Function.comp_def]
    rw [hlist] at hc
    obtain rfl | ⟨piece, hm, hmem⟩ := mem_intercalate hc
    · decide
    · obtain ⟨segment, -, rfl⟩ := List.mem_map.1 hm
      rw [bne_iff_ne]
      rintro rfl
      exact segment.not_mem_encode hmark (by decide) hmem
  refine ⟨r.codedPath ++ "?" ++ Form.encode r.parameters, ?_, ?_⟩
  · unfold url?
    cases hquery : r.query with
    | bare => exact absurd hquery hq
    | _ => simp [codedPath, String.append_assoc]
  · have hrest : (r.codedPath ++ "?" ++ Form.encode r.parameters).toList
        = r.codedPath.toList ++ '?' :: (Form.encode r.parameters).toList := by simp
    unfold Reading.read?
    rw [hrest, List.takeWhile_append_of_pos hplain, List.dropWhile_append_of_pos hplain]
    simp [segments?_codedPath hq hn, Form.decode?_encode hparameters]

end Request

/-! ## What is built -/

/-- A value that passes as a channel is the text of a name. -/
theorem checkChannel_eq_ok {value : Json} {name : String} (h : checkChannel value = .ok name) :
    value = .str name ∧ IsChannelName name := by
  unfold checkChannel at h
  split at h
  · split at h
    · cases h
    · split at h
      · cases h
      · rename_i hempty hcomma
        cases h
        exact ⟨rfl, hempty, by simpa using hcomma⟩
  · cases h

theorem mapM_checkChannel_eq_ok {values : List Json} {names : List String}
    (h : values.mapM checkChannel = .ok names) :
    values = names.map .str ∧ ∀ name ∈ names, IsChannelName name := by
  induction values generalizing names with
  | nil =>
    cases h
    simp
  | cons value rest ih =>
    rw [List.mapM_cons] at h
    cases hv : checkChannel value with
    | error e =>
      rw [hv] at h
      cases h
    | ok name =>
      cases hr : rest.mapM checkChannel with
      | error e =>
        rw [hv, hr] at h
        cases h
      | ok others =>
        rw [hv, hr] at h
        cases h
        obtain ⟨rfl, hname⟩ := checkChannel_eq_ok hv
        obtain ⟨rfl, hothers⟩ := ih hr
        exact ⟨rfl, by simpa using ⟨hname, hothers⟩⟩

/-- A value that passes as channels is a list of names or an object with names as keys, and there
is at least one. -/
theorem checkChannels_eq_ok {value : Json} {names : List String}
    (h : checkChannels value = .ok names) :
    names ≠ [] ∧ (∀ name ∈ names, IsChannelName name)
      ∧ (Operation.subscribeMulti value).Names names := by
  have hchecked : ∀ values, value.elements = .ok values → (∀ s, value ≠ .str s) →
      values = names.map .str ∧ names ≠ [] ∧ ∀ name ∈ names, IsChannelName name := by
    intro values hvalues htext
    unfold checkChannels at h
    split at h
    · exact absurd rfl (htext _)
    · rw [hvalues] at h
      cases hm : values.mapM checkChannel with
      | error e =>
        simp only [hm, bind, Except.bind] at h
        cases h
      | ok found =>
        obtain ⟨rfl, hnames⟩ := mapM_checkChannel_eq_ok hm
        simp only [hm, bind, Except.bind] at h
        split at h
        · cases h
        · rename_i hempty
          cases h
          exact ⟨rfl, by simpa using hempty, hnames⟩
  cases value with
  | arr items =>
    obtain ⟨rfl, hne, hnames⟩ := hchecked items rfl (by simp)
    exact ⟨hne, hnames, .listed names⟩
  | obj fields =>
    obtain ⟨hkeys, hne, hnames⟩ := hchecked _ rfl (by simp)
    have hmap : names = fields.map Prod.fst := by
      simpa [Function.comp_def, Json.toText] using (congrArg (List.map Json.toText) hkeys).symm
    exact ⟨hne, hnames, hmap ▸ .keys fields⟩
  | _ => cases h

theorem parameters_positions (positions : List String) :
    (if Request.disagree positions then [("tt", ",".intercalate positions)] else [])
      = Operation.positionParameters positions := by
  unfold Operation.positionParameters
  cases positions with
  | nil => simp [Request.disagree]
  | cons s rest =>
    by_cases hall : ∀ t ∈ rest, t = s
    · have hsame : ∀ t ∈ s :: rest, t = s := by simpa using hall
      have hnone : Request.disagree (s :: rest) = false := by
        simpa [Request.disagree] using hall
      rw [hnone, if_neg (by simp), if_pos]
      intro t ht u hu
      rw [hsame t ht, hsame u hu]
    · have hsome : Request.disagree (s :: rest) = true := by
        simpa [Request.disagree] using hall
      rw [hsome, if_pos rfl, if_neg]
      intro hagree
      exact hall fun t ht => hagree t (List.mem_cons_of_mem s ht) s List.mem_cons_self

namespace Query

variable {p : Profile} {cursor : Cursor} {fresh : Bytes} {query : Query}

/-- **When a publish is built, and what it then sends.** -/
theorem ofPublish_eq_ok_iff {channel message : Json} :
    ofPublish p fresh channel message = .ok query
      ↔ p.publishKey ≠ "" ∧ ∃ name serialized signature, checkChannel channel = .ok name
        ∧ p.Serializes fresh message serialized ∧ p.Signs name serialized signature
        ∧ .publish p.publishKey name signature serialized = query := by
  by_cases hkey : p.publishKey = ""
  · simp [ofPublish, hkey, throw, throwThe, MonadExceptOf.throw, bind, Except.bind]
  · rw [ofPublish, if_neg hkey]
    unfold Profile.Serializes Profile.Signs
    cases hc : p.cipher <;> cases hs : p.secretKey
    all_goals
      simp only [bind_eq_ok_iff, map_eq_ok_iff, mapError_eq_ok_iff, pure, Except.pure]
      grind

/-- What is known of a history that was built. -/
theorem ofHistory_eq_ok {channel limit includeToken : Json}
    (h : ofHistory channel limit includeToken = .ok query) :
    ∃ name n includes, channel = .str name ∧ limit.toInteger = .ok n
      ∧ query = .history name n includes
      ∧ Operation.tokenParameters includeToken = (match includes with
        | none => []
        | some true => [("include_token", "true")]
        | some false => [("include_token", "false")]) := by
  unfold ofHistory at h
  obtain ⟨name, hname, h⟩ := bind_eq_ok_iff.1 h
  obtain ⟨n, hn, h⟩ := bind_eq_ok_iff.1 h
  unfold checkLimit at hn
  obtain ⟨m, hm, hn⟩ := bind_eq_ok_iff.1 hn
  have hmn : m = n := by
    split at hn
    · cases hn
    · exact Except.ok.inj hn
  subst hmn
  refine ⟨name, m, _, (checkChannel_eq_ok hname).1, hm, (Except.ok.inj h).symm, ?_⟩
  cases includeToken with
  | null => rfl
  | _ =>
    unfold Operation.tokenParameters
    dsimp only
    cases Json.isTruthy _ <;> rfl

/-- What is known of a subscription that was built. -/
theorem ofSubscribe_eq_ok {channels : Json} (h : ofSubscribe cursor channels = .ok query) :
    ∃ names timetoken, checkChannels channels = .ok names ∧ cursor.position names = .ok timetoken
      ∧ query = .subscribe names timetoken (cursor.positions names) := by
  unfold ofSubscribe at h
  obtain ⟨names, hnames, h⟩ := bind_eq_ok_iff.1 h
  obtain ⟨timetoken, ht, h⟩ := bind_eq_ok_iff.1 h
  exact ⟨names, timetoken, hnames, ht, (Except.ok.inj h).symm⟩

end Query

namespace Request

variable {p : Profile} {cursor : Cursor} {fresh : Bytes} {c c' : Configuration} {op : Operation}
  {timeout : Json} {r : Request}

/-- A request that was built is made of the profile and of the query of its operation. -/
theorem build_eq_ok (h : build p cursor fresh c op timeout = (.ok r, c')) :
    Query.ofOperation p cursor fresh op = .ok r.query ∧ r.origin = p.origin ∧ r.uuid = p.uuid
      ∧ r.subscribeKey = p.subscribeKey ∧ r.cipher = p.cipher := by
  unfold build at h
  split at h
  · cases h
  · split at h
    · cases h
    · obtain ⟨query, hq, hr⟩ := map_eq_ok_iff.1 (Prod.mk.inj h).1
      subst hr
      exact ⟨hq, rfl, rfl, rfl, rfl⟩

/-- **A request that was built tells the server what its operation has to tell.** -/
theorem conveys_of_build (hop : op ≠ .bare)
    (h : build p cursor fresh c op timeout = (.ok r, c')) :
    r.query ≠ .bare ∧ r.NamesChannels ∧ op.Conveys p cursor fresh ⟨r.path, r.parameters⟩ := by
  obtain ⟨hq, -, huuid, hkey, -⟩ := build_eq_ok h
  have hsubscribe : ∀ {op' : Operation} {channels : Json},
      Query.ofSubscribe cursor channels = .ok r.query →
      (∀ names, (Operation.subscribeMulti channels).Names names → op'.Names names) →
      r.query ≠ .bare ∧ r.NamesChannels ∧ op'.Conveys p cursor fresh ⟨r.path, r.parameters⟩ := by
    intro op' channels hq hnames
    obtain ⟨names, timetoken, hchecked, ht, hquery⟩ := Query.ofSubscribe_eq_ok hq
    obtain ⟨hne, -, hmulti⟩ := checkChannels_eq_ok hchecked
    refine ⟨by simp [hquery], by simpa [NamesChannels, hquery, Query.channels?] using hne, ?_⟩
    simp only [path, parameters, hquery, hkey, huuid, parameters_positions]
    exact .subscribe (hnames names hmulti) ht
  have hhistory : ∀ {channel limit includeToken : Json},
      Query.ofHistory channel limit includeToken = .ok r.query →
      r.query ≠ .bare ∧ r.NamesChannels
        ∧ (Operation.historyEx channel limit includeToken).Conveys p cursor fresh
          ⟨r.path, r.parameters⟩ := by
    intro channel limit includeToken hq
    obtain ⟨name, n, includes, rfl, hn, hquery, htokens⟩ := Query.ofHistory_eq_ok hq
    refine ⟨by simp [hquery], by simp [NamesChannels, hquery, Query.channels?], ?_⟩
    have hparameters : r.parameters = ("count", toString n)
        :: Operation.tokenParameters includeToken ++ [("uuid", p.uuid)] := by
      rw [htokens, ← huuid]
      obtain _ | _ | _ := includes <;> simp [parameters, hquery]
    simp only [hparameters, path, hquery, hkey]
    exact .historyEx hn
  cases op with
  | bare => exact absurd rfl hop
  | publish channel message =>
    obtain ⟨-, name, serialized, signature, hname, hm, hs, hquery⟩ :=
      Query.ofPublish_eq_ok_iff.1 hq
    obtain ⟨rfl, -⟩ := checkChannel_eq_ok hname
    refine ⟨by simp [← hquery], by simp [NamesChannels, ← hquery, Query.channels?], ?_⟩
    simp only [path, parameters, ← hquery, hkey, huuid]
    exact .publish hm hs
  | subscribe channel =>
    refine hsubscribe hq fun names hnames => ?_
    -- A list of one name is that of a single channel.
    generalize hvalue : Json.arr [channel] = value at hnames
    cases hnames with
    | listed names =>
      obtain ⟨name, rfl⟩ : ∃ name, names = [name] := by
        refine List.length_eq_one_iff.1 ?_
        simpa using (congrArg List.length (Json.arr.inj hvalue)).symm
      obtain rfl : channel = .str name := by simpa using hvalue
      exact .one name
    | keys fields => cases hvalue
  | subscribeMulti channels => exact hsubscribe hq fun names hnames => hnames
  | history channel limit =>
    have hplain : Query.ofHistory channel limit .null = .ok r.query := hq
    obtain ⟨hbare, hnames, hconveys⟩ := hhistory hplain
    refine ⟨hbare, hnames, ?_⟩
    generalize Reading.mk r.path r.parameters = reading at hconveys ⊢
    cases hconveys with
    | historyEx hn => exact .history hn
    | subscribe hn ht => cases hn
  | historyEx channel limit includeToken => exact hhistory hq
  | hereNow channel =>
    obtain ⟨name, hname, hquery⟩ := map_eq_ok_iff.1 hq
    obtain ⟨rfl, -⟩ := checkChannel_eq_ok hname
    refine ⟨by simp [← hquery], by simp [NamesChannels, ← hquery, Query.channels?], ?_⟩
    simp only [path, parameters, ← hquery, hkey, huuid]
    exact .hereNow
  | time =>
    have hquery : Query.time = r.query := Except.ok.inj hq
    refine ⟨by simp [← hquery], by simp [NamesChannels, ← hquery, Query.channels?], ?_⟩
    simp only [path, parameters, ← hquery, huuid]
    exact .time

/-- **What an operation has to tell is read off the address of its request.** Let the request be
built, of any operation but the bare one, from any profile and cursor. Its address is the origin, a
slash, and a rest from which a server that cuts before it decodes reads exactly what the operation
conveys: the segments of the path in order, with the channels of a subscription one by one, and the
names and values of the query in order.

If a publish is signed, the signature that is read is the one that the scheme gives for the keys,
the channel and the message that are read, and the secret key. -/
theorem address_read_back (hop : op ≠ .bare)
    (h : build p cursor fresh c op timeout = (.ok r, c')) :
    ∃ rest reading, r.url? = some (p.origin ++ "/" ++ rest)
      ∧ Reading.read? rest = some reading ∧ op.Conveys p cursor fresh reading
      ∧ ∀ publishKey subscribeKey signature channel message secretKey,
        reading.segments = [.text "publish", .text publishKey, .text subscribeKey,
          .text signature, .text channel, .text "0", .text message] →
        p.secretKey = some secretKey →
        p.scheme.sign ⟨publishKey, subscribeKey, secretKey, channel, message⟩ = .ok signature := by
  obtain ⟨hq, hn, hconveys⟩ := conveys_of_build hop h
  obtain ⟨rest, hurl, hread⟩ := read?_url? hq hn
  rw [(build_eq_ok h).2.1] at hurl
  refine ⟨rest, ⟨r.path, r.parameters⟩, hurl, hread, hconveys, ?_⟩
  intro publishKey subscribeKey signature channel message secretKey hsegments hsecret
  generalize Reading.mk r.path r.parameters = reading at hconveys hsegments
  cases hconveys with
  | publish hm hs =>
    simp only [List.cons.injEq, Segment.text.injEq, and_true, true_and] at hsegments
    obtain ⟨rfl, rfl, rfl, rfl, rfl⟩ := hsegments
    rw [Profile.Signs, hsecret] at hs
    exact hs
  | _ => simp at hsegments

/-- A profile whose texts are full of signs that separate the parts of an address. -/
def awkwardProfile : Profile :=
  ⟨"p/b", "s?b", some "se&cret", .md5, none, "http://o", "a b"⟩

/-- A publish with such a channel and such a message. -/
def awkwardPublish : Operation := .publish (.str "a/b?é") (.str "1+1=2, 100%")

/-- Signs that separate do not spill from one part of an address into another. -/
theorem address_read_back_awkward :
    ∃ r c rest signature,
      build awkwardProfile .empty [] (Configuration.initial ⟨[]⟩ none) awkwardPublish (.int 5)
        = (.ok r, c)
      ∧ r.url? = some ("http://o" ++ "/" ++ rest)
      ∧ Reading.read? rest = some ⟨[.text "publish", .text "p/b", .text "s?b", .text signature,
          .text "a/b?é", .text "0", .text "\"1+1=2, 100%\""], [("uuid", "a b")]⟩
      ∧ Scheme.md5.sign ⟨"p/b", "s?b", "se&cret", "a/b?é", "\"1+1=2, 100%\""⟩
        = .ok signature := by
  have hbuilt : (build awkwardProfile .empty [] (Configuration.initial ⟨[]⟩ none) awkwardPublish
      (.int 5)).1.isOk = true := by decide +kernel
  have hencode : (Json.str "1+1=2, 100%").encode = .ok "\"1+1=2, 100%\"" := by decide +kernel
  generalize hb : build awkwardProfile .empty [] (Configuration.initial ⟨[]⟩ none) awkwardPublish
    (.int 5) = built at hbuilt
  obtain ⟨_ | r, c⟩ := built
  · cases hbuilt
  · have hop : awkwardPublish ≠ .bare := by simp [awkwardPublish]
    obtain ⟨rest, reading, hurl, hread, hconveys, hsigned⟩ := address_read_back hop hb
    generalize hawkward : awkwardPublish = op at hconveys
    cases hconveys with
    | @publish channel serialized signature message hm hs =>
      obtain ⟨hchannel, rfl⟩ := Operation.publish.inj hawkward
      obtain rfl := Json.str.inj hchannel
      obtain rfl : "\"1+1=2, 100%\"" = serialized := Except.ok.inj (hencode.symm.trans hm)
      exact ⟨r, c, rest, signature, rfl, hurl, hread, hsigned _ _ _ _ _ _ rfl rfl⟩
    | subscribe hn ht =>
      rw [← hawkward] at hn
      cases hn
    | _ => cases hawkward

end Request

end Pubsub
