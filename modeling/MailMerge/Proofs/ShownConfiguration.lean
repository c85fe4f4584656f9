import MailMerge.Proofs.GuardedGeneration
import MailMerge.Proofs.WrittenConfiguration

/-!
# The shown configuration can be loaded

A configuration is shown as the text of a configuration file. Whoever puts this text into a file finds the
same configuration there, setting by setting: what was not set is not set again, and what was set to nothing
does not fall back to its default.

* `storedConfiguration` is the configuration that a file holds, and `runIn_readConfiguration` says that
  reading finds it and changes nothing;
* `exists_text_of_configurationFor` — a configuration that was found is the meaning of some text, and so its
  numbers are in bounds;
* `shown_configuration_is_loaded` — the text that is shown for a configuration is loaded as this
  configuration.
-/

namespace MailMerge

variable {path : Text} {w w' : World} {c : Configuration}

/-! ### Stored configurations -/

/-- The configuration that a file **holds**. -/
def storedConfiguration (files : FileSystem) (path : Text) : Except MergeError Configuration :=
  match files.read path with
  | .error fault => .error (.storage path fault)
  | .ok bytes =>
    match Text.ofUtf8? bytes with
    | none => .error (.storage path .notText)
    | some t =>
      match Configuration.ofText? t with
      | some c => .ok c
      | none => .error (.config (.unreadable path))

/-- **Reading** finds the stored configuration and changes nothing. -/
theorem runIn_readConfiguration (path : Text) (w : World) :
    (readConfiguration path).runIn w = (storedConfiguration w.files path, w) := by
  have hread : (Procedure.ofAction (Action.readFile path)).runIn w = (.ok (w.files.read path), w) :=
    Procedure.runIn_ofAction _ _
  rw [readConfiguration, Procedure.runIn_bind, readText, Procedure.runIn_bind, hread, storedConfiguration]
  dsimp only
  cases w.files.read path with
  | error fault => rfl
  | ok bytes =>
    dsimp only
    cases Text.ofUtf8? bytes with
    | none => rfl
    | some t =>
      show (match Configuration.ofText? t with
        | some c => pure c
        | none => throw (.config (.unreadable path)) : Procedure Configuration).runIn w = _
      dsimp only
      cases Configuration.ofText? t with
      | none => rfl
      | some c => rfl

/-- A file whose text means a configuration **holds it**. -/
theorem storedConfiguration_of_read {files : FileSystem} {t : Text}
    (hread : files.read path = .ok (Text.toUtf8 t)) (h : Configuration.ofText? t = some c) :
    storedConfiguration files path = .ok c := by
  unfold storedConfiguration
  rw [hread]
  dsimp only
  rw [Text.ofUtf8?_toUtf8]
  dsimp only
  rw [h]

/-- A stored configuration is **the meaning of some text**. -/
theorem exists_text_of_storedConfiguration {files : FileSystem}
    (h : storedConfiguration files path = .ok c) : ∃ t, Configuration.ofText? t = some c := by
  unfold storedConfiguration at h
  split at h
  case h_1 => cases h
  case h_2 =>
    split at h
    case h_1 => cases h
    case h_2 t _ =>
      split at h
      case h_1 heq =>
        cases h
        exact ⟨t, heq⟩
      case h_2 => cases h

/-- Where nothing is given, **the defaults** hold. -/
theorem Configuration.ofText?_nil : ofText? [] = some standard := by
  have hempty : Toml.ofText? [] = some [] := by
    refine Toml.ofText?_of_builds ?_ TomlReader.spellsLines_nil (TomlReader.builds_nil [])
    intro h
    cases h
  rw [ofText?, hempty]
  rfl

/-- A configuration that was loaded is **the meaning of some text**. -/
theorem exists_text_of_loadConfiguration (h : loadConfiguration.runIn w = (.ok c, w')) :
    ∃ t, Configuration.ofText? t = some c := by
  rw [loadConfiguration] at h
  rcases Procedure.of_runIn_bind h with ⟨path, w₁, -, h⟩ | ⟨e, -, he⟩
  case inr => cases he
  rcases Procedure.of_runIn_bind h with ⟨isThere, w₂, -, h⟩ | ⟨e, -, he⟩
  case inr => cases he
  split at h
  case isTrue =>
    rw [runIn_readConfiguration] at h
    exact exists_text_of_storedConfiguration (Prod.ext_iff.1 h).1
  case isFalse =>
    cases h
    exact ⟨[], Configuration.ofText?_nil⟩

theorem exists_text_of_configurationFor {given : Option Text}
    (h : (configurationFor given).runIn w = (.ok c, w')) : ∃ t, Configuration.ofText? t = some c := by
  cases given with
  | none => exact exists_text_of_loadConfiguration (CommandRun.of_runIn_ofProcedure h)
  | some path =>
    have hread : (readConfiguration path).runIn w = (.ok c, w') := CommandRun.of_runIn_ofProcedure h
    rw [runIn_readConfiguration] at hread
    exact exists_text_of_storedConfiguration (Prod.ext_iff.1 hread).1

/-! ### Showing -/

/-- What is **shown** is the text of the configuration and a line feed. -/
theorem runIn_runShow {given : Option Text} (h : (configurationFor given).runIn w = (.ok c, w')) :
    (runShow given).runIn w = (.ok (c.toText ++ ['\n']), w') := by
  show ((configurationFor given).run >>= _).run w = _
  rw [Action.run_bind]
  unfold CommandRun.runIn at h
  rw [h]
  rfl

/-- The text that is shown for a configuration **is loaded as this configuration**, from whatever file and in
whatever world it is found, with the line feed behind it or without. -/
theorem shown_configuration_is_loaded (given : Option Text) (w w' : World) (c : Configuration)
    (h : (configurationFor given).runIn w = (.ok c, w')) :
    (runShow given).runIn w = (.ok (c.toText ++ ['\n']), w') ∧
      ∀ (path : Text) (later : World),
        later.files.read path = .ok (Text.toUtf8 (c.toText ++ ['\n'])) ∨
          later.files.read path = .ok (Text.toUtf8 c.toText) →
        (readConfiguration path).runIn later = (.ok c, later) := by
  obtain ⟨t, ht⟩ := exists_text_of_configurationFor h
  obtain ⟨hplain, hshown⟩ := Configuration.ofText?_toText (Configuration.inBounds_of_ofText? ht)
  refine ⟨runIn_runShow h, ?_⟩
  intro path later hread
  rw [runIn_readConfiguration]
  rcases hread with hread | hread
  · rw [storedConfiguration_of_read hread hshown]
  · rw [storedConfiguration_of_read hread hplain]

/-- A configuration file that sets lists to nothing, and an alias without a format. -/
def sparseText : Text :=
  "[output]\nname_fields = []\nbatch_name = 'a\"b'\n[placeholders]\nreserved = []\naliases = []\n"

/-- The configuration of this file. -/
def sparseConfiguration : Configuration :=
  { output := { batchName := "a\"b", nameFields := [] }
    placeholders := { aliases := [], reserved := [] } }

/-- A world that holds one file. -/
def worldOfFile (name text : Text) : World where
  files := FileSystem.empty.put [name] (.file text.toUtf8)
  environment := []
  home := none
  clock := ⟨0, 0⟩
  endpoint := fun _ _ => .error []
  exchanges := []

/-- Lists that were set to nothing **stay empty** when what is shown for them is loaded. -/
theorem shown_configuration_is_loaded_with_empty_lists :
    ((configurationFor (some "a.toml")).runIn (worldOfFile "a.toml" sparseText)).1 =
        .ok sparseConfiguration ∧
      (readConfiguration "b.toml").runIn (worldOfFile "b.toml" (sparseConfiguration.toText ++ ['\n'])) =
        (.ok sparseConfiguration, worldOfFile "b.toml" (sparseConfiguration.toText ++ ['\n'])) := by
  have hfound : ((configurationFor (some "a.toml")).runIn (worldOfFile "a.toml" sparseText)).1 =
      .ok sparseConfiguration := by
    decide +kernel
  have hread : (worldOfFile "b.toml" (sparseConfiguration.toText ++ ['\n'])).files.read "b.toml" =
      .ok (Text.toUtf8 (sparseConfiguration.toText ++ ['\n'])) := by
    decide +kernel
  obtain ⟨-, hloaded⟩ := shown_configuration_is_loaded (some "a.toml") _ _ _ (Prod.ext hfound rfl)
  exact ⟨hfound, hloaded "b.toml" _ (.inl hread)⟩

end MailMerge
