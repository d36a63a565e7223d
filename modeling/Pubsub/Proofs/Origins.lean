import Mathlib.Data.List.DropRight
import Mathlib.Data.List.Infix
import Pubsub.Proofs.Bookkeeping

/-!
# The form of origins

An origin is meant to be kept in one form: no blanks around it, a scheme in front, no slash at its
end. `IsOrigin` says so without any reference to how origins are brought into this form, and the
texts of this form turn out to be the fixed points of `normalizeOrigin`
(`normalizeOrigin_self_iff`).

What an application gives is trimmed, then gets a scheme, and then loses the slashes at its end, in
this order and once each. Losing the slashes can bring blanks to the end again, or eat the mark of
the scheme; so the result is of the right form exactly if neither happens, which can be told from
what was given (`NamesHost`). What the last rewrite leaves in any case, a beginning that is not
blank and an end that is no slash, every origin has.
-/

namespace Pubsub

/-! ## Cutting off ends -/

section Ends

variable {p : Char → Bool} {s t : List Char} {c : Char}

/-- Nothing is left at the end that is to be cut off. -/
theorem not_of_getLast?_dropTail (h : c ∈ (dropTail p s).getLast?) : p c = false := by
  obtain ⟨hne, rfl⟩ := List.mem_getLast?_eq_getLast h
  exact Bool.eq_false_iff.2 (List.rdropWhile_last_not p s hne)

/-- Nothing is cut off where nothing is to be. -/
theorem dropTail_eq_self (h : ∀ c ∈ s.getLast?, p c = false) : dropTail p s = s :=
  (List.rdropWhile_eq_self_iff (p := p)).2 fun hne =>
    Bool.eq_false_iff.1 (h _ (List.getLast_mem_getLast? hne))

theorem isPrefix_dropTail (p : Char → Bool) (s : List Char) : dropTail p s <+: s :=
  List.rdropWhile_prefix (p := p) s

/-- What is cut off a text in two parts is cut off the second part, unless it is all of that. -/
theorem dropTail_append (p : Char → Bool) (s t : List Char) :
    dropTail p (s ++ t) = if dropTail p t = [] then dropTail p s else s ++ dropTail p t := by
  unfold dropTail
  rw [List.reverse_append, List.dropWhile_append]
  by_cases h : (t.reverse.dropWhile p) = [] <;> simp [h]

theorem head?_eq_of_isPrefix (h : t <+: s) (hne : t ≠ []) : t.head? = s.head? := by
  obtain ⟨rest, rfl⟩ := h
  exact (List.head?_append_of_ne_nil t hne).symm

/-- What is trimmed begins with no blank. -/
theorem head?_trimBlanks (h : c ∈ (trimBlanks s).head?) : isBlank c = false := by
  have hne : trimBlanks s ≠ [] := by
    rintro heq
    rw [heq] at h
    cases h
  have hprefix : trimBlanks s <+: s.dropWhile isBlank := isPrefix_dropTail isBlank _
  rw [head?_eq_of_isPrefix hprefix hne] at h
  have := List.head?_dropWhile_not isBlank s
  rw [Option.mem_def.1 h] at this
  simpa using this

/-- What is trimmed ends in no blank. -/
theorem getLast?_trimBlanks (h : c ∈ (trimBlanks s).getLast?) : isBlank c = false :=
  not_of_getLast?_dropTail h

/-- A text without blanks around it is left as it is. -/
theorem trimBlanks_eq_self (hhead : ∀ c ∈ s.head?, isBlank c = false)
    (hlast : ∀ c ∈ s.getLast?, isBlank c = false) : trimBlanks s = s := by
  have hfront : s.dropWhile isBlank = s := by
    cases s with
    | nil => rfl
    | cons c s => exact List.dropWhile_cons_of_neg (by simp [hhead c rfl])
  rw [trimBlanks, hfront, dropTail_eq_self hlast]

theorem isInfix_trimBlanks (s : List Char) : trimBlanks s <:+: s :=
  (isPrefix_dropTail _ _).isInfix.trans (List.dropWhile_suffix isBlank).isInfix

end Ends

/-- What occurs in a text stands somewhere in it. -/
theorem occursIn_iff {part s : List Char} : occursIn part s = true ↔ part <:+: s := by
  induction s with
  | nil => simp [occursIn]
  | cons c s ih => simp [occursIn, ih, List.infix_cons_iff]

/-! ## The form -/

/-- **The form of an origin**: a scheme with its mark and something behind it, no blanks around it,
no slash at its end. -/
structure IsOrigin (origin : String) : Prop where
  marked : ∃ before c after, origin.toList = before ++ schemeMark ++ c :: after
  begins : ∀ c ∈ origin.toList.head?, isBlank c = false
  ends : ∀ c ∈ origin.toList.getLast?, isBlank c = false ∧ c ≠ '/'

/-- What is left of a given origin, apart from a scheme that it gets: it is trimmed, and then loses
the slashes at its end. -/
def hostPart (given : String) : List Char :=
  dropTail (· = '/') (trimBlanks given.toList)

/-- Losing the slashes at the end brings no blank to the end, and does not eat the mark of a scheme
that was given. -/
structure NamesHost (given : String) : Prop where
  ends : ∃ c ∈ (hostPart given).getLast?, isBlank c = false
  marked : schemeMark <:+: trimBlanks given.toList → schemeMark <:+: hostPart given

theorem isPrefix_hostPart (given : String) : hostPart given <+: trimBlanks given.toList :=
  isPrefix_dropTail _ _

theorem ne_slash_of_getLast?_hostPart {given : String} {c : Char}
    (h : c ∈ (hostPart given).getLast?) : c ≠ '/' := by
  simpa using not_of_getLast?_dropTail h

/-! ## What becomes of a given origin -/

/-- **The three ways of an origin into its form.** It has a scheme; or it gets one; or it consists
of slashes, and the mark of the scheme that it gets is lost with them. -/
theorem normalizeOrigin_cases {given origin : String} (h : normalizeOrigin given = .ok origin) :
    (schemeMark <:+: trimBlanks given.toList ∧ hostPart given ≠ [] ∧ origin.toList = hostPart given)
    ∨ (¬ schemeMark <:+: trimBlanks given.toList ∧ hostPart given ≠ []
        ∧ origin.toList = "http://".toList ++ hostPart given)
    ∨ (¬ schemeMark <:+: trimBlanks given.toList ∧ hostPart given = [] ∧ origin = "http:") := by
  unfold normalizeOrigin at h
  dsimp only at h
  split at h
  · cases h
  · have horigin := Except.ok.inj h
    subst horigin
    rw [String.toList_ofList]
    by_cases hmark : schemeMark <:+: trimBlanks given.toList
    · refine .inl ⟨hmark, ?_, by rw [if_pos (occursIn_iff.2 hmark)]; rfl⟩
      intro hnil
      have hslashes := List.rdropWhile_eq_nil_iff.1 hnil ':' (hmark.mem (by decide))
      exact absurd hslashes (by decide)
    · rw [if_neg (mt occursIn_iff.1 hmark), dropTail_append]
      change _ ∨ _ ∨ _ ∧ _ ∧ String.ofList (if hostPart given = [] then _ else _) = _
      by_cases hnil : hostPart given = []
      · refine .inr (.inr ⟨hmark, hnil, ?_⟩)
        rw [if_pos hnil]
        decide
      · exact .inr (.inl ⟨hmark, hnil, if_neg hnil⟩)

/-- The texts that are not accepted are the blank ones. -/
theorem exists_normalizeOrigin_iff {given : String} :
    (∃ origin, normalizeOrigin given = .ok origin) ↔ trimBlanks given.toList ≠ [] := by
  unfold normalizeOrigin
  dsimp only
  constructor
  · rintro ⟨origin, h⟩ hnil
    rw [hnil] at h
    cases h
  · intro hne
    rw [if_neg (mt List.isEmpty_iff.1 hne)]
    exact ⟨_, rfl⟩

/-- **What every origin has**: it begins with no blank, and ends in no slash. -/
theorem ends_of_normalizeOrigin {given origin : String} (h : normalizeOrigin given = .ok origin) :
    origin.toList ≠ [] ∧ (∀ c ∈ origin.toList.head?, isBlank c = false)
      ∧ ∀ c ∈ origin.toList.getLast?, c ≠ '/' := by
  rcases normalizeOrigin_cases h with ⟨-, hne, heq⟩ | ⟨-, hne, heq⟩ | ⟨-, -, rfl⟩
  · rw [heq]
    refine ⟨hne, fun c hc => ?_, fun c hc => ne_slash_of_getLast?_hostPart hc⟩
    rw [head?_eq_of_isPrefix (isPrefix_hostPart given) hne] at hc
    exact head?_trimBlanks hc
  · rw [heq]
    refine ⟨List.append_ne_nil_of_right_ne_nil _ hne, ?_, fun c hc => ?_⟩
    · rintro c ⟨⟩
      decide
    · rw [List.getLast?_append_of_ne_nil _ hne] at hc
      exact ne_slash_of_getLast?_hostPart hc
  · refine ⟨by decide, ?_, ?_⟩ <;>
    · rintro c ⟨⟩
      decide

/-- A scheme without its mark is no origin. -/
theorem not_isOrigin_http : ¬ IsOrigin "http:" := by
  rintro ⟨⟨before, c, after, hmarked⟩, -, -⟩
  have hlost : ¬ schemeMark <:+: "http:".toList := by decide
  exact hlost ⟨before, c :: after, hmarked.symm⟩

/-- **An origin has its form exactly if losing slashes did no harm.** -/
theorem isOrigin_iff_namesHost {given origin : String} (h : normalizeOrigin given = .ok origin) :
    IsOrigin origin ↔ NamesHost given := by
  obtain ⟨-, hbegins, -⟩ := ends_of_normalizeOrigin h
  rcases normalizeOrigin_cases h with ⟨hmark, hne, heq⟩ | ⟨hmark, hne, heq⟩ | ⟨-, hnil, rfl⟩
  · constructor
    · rintro ⟨⟨before, c, after, hmarked⟩, -, hends⟩
      rw [heq] at hmarked hends
      have hlast := List.getLast_mem_getLast? hne
      exact ⟨⟨_, hlast, (hends _ hlast).1⟩, fun _ => ⟨before, c :: after, hmarked.symm⟩⟩
    · rintro ⟨⟨last, hlast, hblank⟩, hmarked⟩
      obtain ⟨before, rest, hrest⟩ := hmarked hmark
      -- The mark ends in a slash, and the host does not: so something stands behind the mark.
      have hbehind : rest ≠ [] := by
        rintro rfl
        rw [List.append_nil] at hrest
        have hslash : '/' ∈ (hostPart given).getLast? := by
          rw [← hrest, List.getLast?_append_of_ne_nil _ (by decide)]
          rfl
        exact ne_slash_of_getLast?_hostPart hslash rfl
      obtain ⟨c, after, rfl⟩ := List.exists_cons_of_ne_nil hbehind
      refine ⟨⟨before, c, after, heq.trans hrest.symm⟩, hbegins, ?_⟩
      rw [heq]
      intro d hd
      obtain rfl := Option.mem_unique hlast hd
      exact ⟨hblank, ne_slash_of_getLast?_hostPart hlast⟩
  · have hlast : origin.toList.getLast? = (hostPart given).getLast? := by
      rw [heq, List.getLast?_append_of_ne_nil _ hne]
    constructor
    · rintro ⟨-, -, hends⟩
      rw [hlast] at hends
      have hmem := List.getLast_mem_getLast? hne
      exact ⟨⟨_, hmem, (hends _ hmem).1⟩, fun h => absurd h hmark⟩
    · rintro ⟨⟨last, hmem, hblank⟩, -⟩
      obtain ⟨c, after, hhost⟩ := List.exists_cons_of_ne_nil hne
      refine ⟨⟨"http".toList, c, after, by rw [heq, hhost]; rfl⟩, hbegins, ?_⟩
      rw [hlast]
      intro d hd
      obtain rfl := Option.mem_unique hmem hd
      exact ⟨hblank, ne_slash_of_getLast?_hostPart hmem⟩
  · constructor
    · exact fun h => absurd h not_isOrigin_http
    · rintro ⟨⟨last, hmem, -⟩, -⟩
      rw [hnil] at hmem
      cases hmem

/-! ## Fixed points -/

/-- A text of the right form is an origin as it stands. -/
theorem IsOrigin.normalizeOrigin_self {origin : String} (h : IsOrigin origin) :
    normalizeOrigin origin = .ok origin := by
  obtain ⟨⟨before, c, after, hmarked⟩, hbegins, hends⟩ := h
  have htrimmed : trimBlanks origin.toList = origin.toList :=
    trimBlanks_eq_self hbegins fun c hc => (hends c hc).1
  have hhost : dropTail (· = '/') origin.toList = origin.toList :=
    dropTail_eq_self fun c hc => by simpa using (hends c hc).2
  have hne : ¬ origin.toList.isEmpty = true := by
    rw [hmarked]
    simp
  have hmark : occursIn schemeMark origin.toList = true :=
    occursIn_iff.2 ⟨before, c :: after, hmarked.symm⟩
  unfold normalizeOrigin
  dsimp only
  rw [htrimmed, if_neg hne, if_pos hmark, hhost, String.ofList_toList]

/-- An origin that gets a scheme is not the text that was given: that text would begin with the
scheme, and trimming would leave it there. -/
theorem marked_of_eq_http {given : String} (h : given.toList = "http://".toList ++ hostPart given) :
    schemeMark <:+: trimBlanks given.toList := by
  have hfront : given.toList.dropWhile isBlank = given.toList := by
    rw [h]
    exact List.dropWhile_cons_of_neg (by decide)
  have hprefix : "http://".toList <+: trimBlanks given.toList := by
    rw [trimBlanks, hfront, h, dropTail_append]
    split
    · decide
    · exact List.prefix_append _ _
  have hmark : schemeMark <:+: "http://".toList := by decide
  exact hmark.trans hprefix.isInfix

/-- **The texts of the right form are exactly the fixed points.** -/
theorem normalizeOrigin_self_iff {origin : String} :
    normalizeOrigin origin = .ok origin ↔ IsOrigin origin := by
  refine ⟨fun h => ?_, IsOrigin.normalizeOrigin_self⟩
  rcases normalizeOrigin_cases h with ⟨-, hne, heq⟩ | ⟨hmark, -, heq⟩ | ⟨-, hnil, rfl⟩
  · have hhost : hostPart origin = trimBlanks origin.toList := by
      refine (isPrefix_hostPart origin).eq_of_length_le ?_
      rw [← heq]
      exact (isInfix_trimBlanks _).length_le
    refine (isOrigin_iff_namesHost h).2 ⟨?_, fun hmark => hhost ▸ hmark⟩
    obtain ⟨last, hlast⟩ : ∃ last, last ∈ (hostPart origin).getLast? :=
      ⟨_, List.getLast_mem_getLast? hne⟩
    exact ⟨last, hlast, getLast?_trimBlanks (hhost ▸ hlast)⟩
  · exact absurd (marked_of_eq_http heq) hmark
  · exact absurd hnil (by decide)

/-! ## The origins of sessions -/

/-- A change of a setting keeps the origin, or brings one that was given. -/
theorem Session.origin_of_set {s t : Session} {setting : SettingChange}
    (h : s.set setting = (.ok (), t)) :
    t.profile.origin = s.profile.origin
      ∨ ∃ given, normalizeOrigin given = .ok t.profile.origin := by
  obtain ⟨-, h⟩ := set_eq_ok_iff.1 h
  have hprofile : ∀ {f : Profile → Except Error Unit × Profile}, s.writeProfile f = (.ok (), t) →
      f s.profile = (.ok (), t.profile) := by
    intro f h
    obtain ⟨hf, rfl⟩ := Prod.mk.inj h
    exact Prod.ext hf rfl
  cases setting with
  | policy mask reports delay budget =>
    unfold write writePolicy at h
    dsimp only at h
    split at h <;> cases h
    exact .inl rfl
  | cipherKey key freshVector =>
    refine .inl ?_
    have hf := hprofile (f := (·.setCipherKey key freshVector)) h
    dsimp only [Profile.setCipherKey] at hf
    split at hf
    · rw [← (Prod.mk.inj hf).2]
    · split at hf
      · rw [← (Prod.mk.inj hf).2]
      · split at hf
        · cases hf
        · rw [← (Prod.mk.inj hf).2]
    · cases hf
  | secretKey key choice =>
    have hf := hprofile (f := (·.setSecretKey key choice)) h
    dsimp only [Profile.setSecretKey] at hf
    split at hf
    · cases hf
    · exact .inl (by rw [← (Prod.mk.inj hf).2])
  | origin origin =>
    have hf := hprofile (f := (·.setOrigin origin)) h
    dsimp only [Profile.setOrigin] at hf
    split at hf
    · cases hf
    · rename_i origin' hgiven
      exact .inr ⟨origin.toText, by rw [← (Prod.mk.inj hf).2]; exact hgiven⟩
  | uuid uuid =>
    refine .inl ?_
    have hf := hprofile (f := (·.setUuid uuid)) h
    dsimp only [Profile.setUuid] at hf
    split at hf
    · cases hf
    · rw [← (Prod.mk.inj hf).2]

namespace Ledger

variable {Handler : Type} {P : Outcome → Prop} {l l' : Ledger Handler} {i : Nat} {s t : Session}

/-- The origin of every session was given as some text. -/
def HasOrigins (l : Ledger Handler) : Prop :=
  ∀ s ∈ l.sessions, ∃ given, normalizeOrigin given = .ok s.profile.origin

namespace HasOrigins

theorem empty : (Ledger.empty : Ledger Handler).HasOrigins := by rintro s ⟨⟩

theorem set (h : l.HasOrigins) (ht : ∃ given, normalizeOrigin given = .ok t.profile.origin) :
    ∀ s ∈ l.sessions.set i t, ∃ given, normalizeOrigin given = .ok s.profile.origin := by
  intro s hs
  rcases List.mem_or_eq_of_mem_set hs with hs | rfl
  · exact h s hs
  · exact ht

/-- A session may be rewritten freely as long as its profile stays. -/
theorem set_of_profile (h : l.HasOrigins) (hs : l.sessions[i]? = some s)
    (ht : t.profile = s.profile) :
    ∀ s ∈ l.sessions.set i t, ∃ given, normalizeOrigin given = .ok s.profile.origin :=
  h.set (ht ▸ h s (List.mem_of_getElem? hs))

/-- **Every entry keeps to origins that were given.** -/
theorem entry (h : l.HasOrigins) (he : Entry P l l') : l'.HasOrigins := by
  cases he with
  | blank => exact h
  | opened hn =>
    intro s hs
    rcases List.mem_append.1 hs with hs | hs
    · exact h s hs
    · rw [List.mem_singleton.1 hs]
      exact hn.origin
  | changed hs change ht =>
    rcases Session.origin_of_set ht with heq | hgiven
    · exact h.set (heq ▸ h _ (List.mem_of_getElem? hs))
    · exact h.set hgiven
  | cleared hs cursor _ => exact h.set_of_profile hs rfl
  | closed hs => exact h.set_of_profile hs rfl
  | claimed hs ht =>
    obtain ⟨-, -, rfl⟩ := (Session.claim_eq_ok_iff _ _).1 ht
    exact h.set_of_profile hs rfl
  | unbuilt hs hb => exact h.set_of_profile hs rfl
  | accepted hs hb request callback => exact h
  | resumed now fed hc hP hr => exact h.set_of_profile (callOn?_eq_some_iff.1 hc).2 rfl
  | ended now fed hc hu hP hr ho =>
    rw [settle_setCall]
    exact h.set_of_profile (callOn?_eq_some_iff.1 hc).2 rfl
  | abandoned hc hu => exact h.set_of_profile (callOn?_eq_some_iff.1 hc).2 rfl

end HasOrigins

end Ledger

namespace Client

theorem Reachable.hasOrigins {Handler : Type} {w : Client Handler} (h : Reachable w) :
    w.ledger.HasOrigins :=
  Reachable.ledger .empty (fun h he => h.entry he) h

/-- **What origins are like.** A session can be given any text as its origin that is not blank, when
it is opened or later. What it then holds begins with no blank and ends in no slash. It has the form
of an origin, which is the same as being a fixed point, if and only if losing the slashes at the end
of what was given brought no blank to the end and did not eat the mark of its scheme. -/
theorem origins_have_their_form {Handler : Type} :
    (∀ given, (∃ origin, normalizeOrigin given = .ok origin) ↔ trimBlanks given.toList ≠ [])
    ∧ (∀ given origin, normalizeOrigin given = .ok origin →
      (origin.toList ≠ [] ∧ (∀ c ∈ origin.toList.head?, isBlank c = false)
        ∧ ∀ c ∈ origin.toList.getLast?, c ≠ '/')
      ∧ (IsOrigin origin ↔ NamesHost given)
      ∧ (normalizeOrigin origin = .ok origin ↔ NamesHost given))
    ∧ ∀ w : Client Handler, Reachable w → ∀ s ∈ w.sessions,
      ∃ given, normalizeOrigin given = .ok s.profile.origin := by
  refine ⟨fun _ => exists_normalizeOrigin_iff, fun given origin h => ?_, fun w hw => hw.hasOrigins⟩
  have hform := isOrigin_iff_namesHost h
  exact ⟨ends_of_normalizeOrigin h, hform, normalizeOrigin_self_iff.trans hform⟩

/-- An application that opens a session with an origin. -/
def opening (origin : String) : List (Action Unit) :=
  [.openSession ⟨.null, .null, .str origin, .null, true⟩ "u"]

/-- A client without sessions. -/
def idleClient : Client Unit :=
  initial (Configuration.initial ⟨[]⟩ none) [] (Frontend.borrowing .blocking)

/-- An origin that was given with blanks around it and two slashes at its end. -/
theorem origins_have_their_form_untidy :
    ∃ (w : Client Unit) (s : Session), Reachable w ∧ s ∈ w.sessions
      ∧ s.profile.origin = "http://host:8080/a" ∧ IsOrigin s.profile.origin
      ∧ ∃ given, normalizeOrigin given = .ok s.profile.origin ∧ NamesHost given := by
  have hfacts : (idleClient.run? (opening " host:8080/a//\n")).any (fun w =>
      (w.sessions[0]?).any (·.profile.origin == "http://host:8080/a")) = true := by
    decide +kernel
  obtain ⟨w, hrun, hfacts⟩ := (Option.any_eq_true _ _).1 hfacts
  obtain ⟨s, hs, horigin⟩ := (Option.any_eq_true _ _).1 hfacts
  rw [beq_iff_eq] at horigin
  have hw : Reachable w := .run (.initial _ [] _) (fun _ _ => trivial) hrun
  obtain ⟨-, hforms, hsessions⟩ := @origins_have_their_form Unit
  have hnames : NamesHost " host:8080/a//\n" := ⟨⟨'a', by decide +kernel⟩, by decide +kernel⟩
  have horiginal : IsOrigin s.profile.origin := by
    rw [horigin]
    exact (hforms " host:8080/a//\n" _ rfl).2.1.2 hnames
  obtain ⟨given, hgiven⟩ := hsessions w hw s (List.mem_of_getElem? hs)
  exact ⟨w, s, hw, List.mem_of_getElem? hs, horigin, horiginal, given, hgiven,
    (hforms given _ hgiven).2.1.1 horiginal⟩

/-- **A blank can come to the end of an origin, and its scheme can be eaten.** -/
theorem origins_out_of_form :
    (∃ (w : Client Unit) (s : Session), Reachable w ∧ s ∈ w.sessions
      ∧ s.profile.origin = "http://x " ∧ ¬ IsOrigin s.profile.origin
      ∧ normalizeOrigin s.profile.origin = .ok "http://x")
    ∧ normalizeOrigin "/" = .ok "http:" ∧ ¬ IsOrigin "http:"
      ∧ normalizeOrigin "http:" = .ok "http://http:" := by
  constructor
  · have hfacts : (idleClient.run? (opening "x /")).any (fun w =>
        (w.sessions[0]?).any (·.profile.origin == "http://x ")) = true := by
      decide +kernel
    obtain ⟨w, hrun, hfacts⟩ := (Option.any_eq_true _ _).1 hfacts
    obtain ⟨s, hs, horigin⟩ := (Option.any_eq_true _ _).1 hfacts
    rw [beq_iff_eq] at horigin
    have hw : Reachable w := .run (.initial _ [] _) (fun _ _ => trivial) hrun
    refine ⟨w, s, hw, List.mem_of_getElem? hs, horigin, ?_, ?_⟩
    · rw [horigin]
      rintro ⟨-, -, hends⟩
      exact absurd (hends ' ' (by decide +kernel)).1 (by decide)
    · rw [horigin]
      rfl
  · exact ⟨rfl, not_isOrigin_http, rfl⟩

end Client

end Pubsub
