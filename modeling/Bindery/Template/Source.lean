import Bindery.Template.Settings
import Bindery.Toml.Reader

namespace Bindery

/-!
# Sources of settings

* `Settings.ofMembers` — settings from the members of a document; what is not mentioned is usual.
* `SettingsSource` — a document, or settings made otherwise.
* `SettingsSource.load`, `SettingsSource.validated` — the settings, validated or as they are.
-/

namespace Settings

/-- The text under a key, or a usual one if there is nothing. -/
def textIn (members : Toml.Members) (key usual : String) : Except TemplateError String :=
  match members.lookup key with
  | none => .ok usual
  | some (.text value) => .ok value
  | some _ => .error .unreadableSettings

/-- The truth value under a key, or a usual one if there is nothing. -/
def boolIn (members : Toml.Members) (key : String) (usual : Bool) : Except TemplateError Bool :=
  match members.lookup key with
  | none => .ok usual
  | some (.bool value) => .ok value
  | some _ => .error .unreadableSettings

/-- The settings that a document gives; unknown members mean nothing. -/
def ofMembers (members : Toml.Members) : Except TemplateError Settings := do
  let lead ← textIn members "directive_prefix" standard.lead
  let opening ← textIn members "interpolation_open" standard.opening
  let closing ← textIn members "interpolation_close" standard.closing
  let strict ← boolIn members "strict_directives" standard.strict
  return ⟨lead, opening, closing, strict⟩

/-- The settings of use that a document gives. -/
def ofToml (text : String) : Except TemplateError Settings :=
  match Toml.read? text with
  | none => .error .unreadableSettings
  | some members => do
    let settings ← ofMembers members
    settings.validate
    return settings

end Settings

/-- Where settings come from. -/
inductive SettingsSource where
  /-- A settings document. -/
  | document (text : String)
  | given (settings : Settings)

namespace SettingsSource

/-- Settings from a document are validated as they are read; given ones are taken as they are. -/
def load : SettingsSource → Except TemplateError Settings
  | document text => Settings.ofToml text
  | given settings => .ok settings

/-- Settings of use. -/
def validated (source : SettingsSource) : Except TemplateError Settings := do
  let settings ← source.load
  settings.validate
  return settings

end SettingsSource

end Bindery
