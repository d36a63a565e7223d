import Pubsub.Session

/-!
# Settings stay once they are loaded

The first setting that is asked for loads all of them, and nothing discards them as long as a client
runs. So what was built from settings once is built from the same ones ever after: opening a session
and building a request leave a configuration as it is that has loaded its settings, and a timeout
that could be resolved can be resolved again.
-/

namespace Pubsub

namespace Configuration

variable {c c' : Configuration}

theorem settings_of_loaded {settings : Settings} (h : c.loaded = some settings) :
    c.settings = (.ok settings, c) := by
  unfold Configuration.settings
  rw [h]

/-- Asking for settings that were loaded reads nothing again. -/
theorem snd_settings (h : c.loaded.isSome = true) : c.settings.2 = c := by
  obtain ⟨settings, hloaded⟩ := Option.isSome_iff_exists.1 h
  rw [settings_of_loaded hloaded]

theorem snd_value (h : c.loaded.isSome = true) (s : Setting) : (c.value s).2 = c :=
  snd_settings h

theorem snd_get (h : c.loaded.isSome = true) (name : String) : (c.get name).2 = c :=
  snd_settings h

/-- A timeout is a setting, or is what it is whatever the settings are. -/
theorem resolveTimeout_eq (timeout : Json) :
    (∀ (c : Configuration) (name : String), c.resolveTimeout timeout name
      = ((c.get name).1 >>= Json.toDouble, (c.get name).2))
    ∨ ∃ answer, ∀ (c : Configuration) (name : String),
      c.resolveTimeout timeout name = (answer, c) := by
  by_cases hnull : timeout = .null
  · subst hnull
    exact .inl fun c name => rfl
  · cases hnegative : timeout.isNegative with
    | error e => exact .inr ⟨.error e, fun c name => by simp [resolveTimeout, hnegative]⟩
    | ok negative =>
      cases negative with
      | true => exact .inl fun c name => by simp [resolveTimeout, hnegative]
      | false =>
        exact .inr ⟨timeout.toDouble, fun c name => by simp [resolveTimeout, hnegative]⟩

theorem snd_resolveTimeout (h : c.loaded.isSome = true) (timeout : Json) (name : String) :
    (c.resolveTimeout timeout name).2 = c := by
  rcases resolveTimeout_eq timeout with hsetting | ⟨answer, hanswer⟩
  · rw [hsetting]
    exact snd_get h name
  · rw [hanswer]

/-- Settings that could be asked for are loaded from then on, and are what they were. -/
theorem settings_eq_ok {settings : Settings} (h : c.settings = (.ok settings, c')) :
    c'.loaded = some settings := by
  unfold Configuration.settings at h
  split at h
  · rename_i hloaded
    cases h
    exact hloaded
  · split at h
    · cases h
      rfl
    · cases h

/-- The timeout can be resolved, and nothing has to be read for it. -/
def Resolves (c : Configuration) (timeout : Json) (name : String) : Prop :=
  ∃ seconds, c.resolveTimeout timeout name = (.ok seconds, c)

/-- What was asked of the settings has loaded them. -/
theorem isSome_loaded_of_get {name : String} {seconds : Binary64}
    (h : ((c.get name).1 >>= Json.toDouble, (c.get name).2) = (.ok seconds, c')) :
    c'.loaded.isSome = true := by
  unfold get at h
  generalize hsettings : c.settings = answer at h
  obtain ⟨answer, c''⟩ := answer
  dsimp only at h
  obtain ⟨hvalue, rfl⟩ := Prod.mk.inj h
  cases answer with
  | error e => cases hvalue
  | ok settings => rw [settings_eq_ok hsettings, Option.isSome_some]

/-- A timeout that could be resolved can be resolved again. -/
theorem resolves_of_eq_ok {timeout : Json} {name : String} {seconds : Binary64}
    (h : c.resolveTimeout timeout name = (.ok seconds, c')) : c'.Resolves timeout name := by
  refine ⟨seconds, ?_⟩
  rcases resolveTimeout_eq timeout with hsetting | ⟨answer, hanswer⟩
  · rw [hsetting] at h ⊢
    unfold get at h ⊢
    generalize hsettings : c.settings = answer at h
    obtain ⟨answer, c''⟩ := answer
    dsimp only at h
    obtain ⟨hvalue, rfl⟩ := Prod.mk.inj h
    cases answer with
    | error e => cases hvalue
    | ok settings =>
      rw [settings_of_loaded (settings_eq_ok hsettings)]
      exact Prod.ext hvalue rfl
  · rw [hanswer] at h ⊢
    exact Prod.ext (Prod.mk.inj h).1 rfl

/-- A timeout that can be resolved can still be when settings that were loaded stayed. -/
theorem Resolves.mono {timeout : Json} {name : String} (h : c.Resolves timeout name)
    (hkept : c.loaded.isSome = true → c' = c) : c'.Resolves timeout name := by
  obtain ⟨seconds, h⟩ := h
  rcases resolveTimeout_eq timeout with hsetting | ⟨answer, hanswer⟩
  · rw [hsetting] at h
    rw [hkept (isSome_loaded_of_get h)]
    exact ⟨seconds, (hsetting c name).trans h⟩
  · rw [hanswer] at h
    exact ⟨seconds, (hanswer c' name).trans (Prod.ext (Prod.mk.inj h).1 rfl)⟩

end Configuration

theorem Request.snd_build (p : Profile) (cursor : Cursor) (fresh : Bytes) {c : Configuration}
    (h : c.loaded.isSome = true) (op : Operation) (timeout : Json) :
    (Request.build p cursor fresh c op timeout).2 = c := by
  have hresolved := Configuration.snd_resolveTimeout h timeout op.timeoutSetting.name
  unfold Request.build
  split
  · rfl
  · split
    · rename_i heq
      rw [heq] at hresolved
      exact hresolved
    · rename_i heq
      rw [heq] at hresolved
      exact hresolved

/-- The timeout of a request that was built can be resolved again. -/
theorem Request.resolves_of_build {p : Profile} {cursor : Cursor} {fresh : Bytes}
    {c c' : Configuration} {op : Operation} {timeout : Json} {r : Request}
    (h : Request.build p cursor fresh c op timeout = (.ok r, c')) :
    c'.Resolves timeout op.timeoutSetting.name := by
  unfold Request.build at h
  split at h
  · cases h
  · split at h
    · cases h
    · rename_i seconds _ hresolved
      obtain ⟨-, rfl⟩ := Prod.mk.inj h
      exact Configuration.resolves_of_eq_ok hresolved

theorem Session.snd_create (options : SessionOptions) (identity : String) {c : Configuration}
    (h : c.loaded.isSome = true) : (Session.create options identity c).2 = c := by
  have horigin : (Session.originOf options c).2 = c := by
    unfold Session.originOf
    split
    · exact Configuration.snd_value h .origin
    · rfl
  have hpolicy : (Session.initialPolicy c).2 = c := by
    show ((c.value .retryDelay).2.value .retryBudget).2 = c
    rw [Configuration.snd_value h, Configuration.snd_value h]
  unfold Session.create
  split
  · rename_i heq
    rw [heq] at horigin
    exact horigin
  · rename_i heq
    rw [heq] at horigin
    obtain rfl : _ = c := horigin
    exact hpolicy

end Pubsub
