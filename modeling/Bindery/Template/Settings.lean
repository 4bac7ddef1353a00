import Bindery.Template.Error

namespace Bindery

/-!
# Settings of templates

* `Settings` — what marks directives and interpolations, and how strict binding is.
* `Settings.validate` — settings of use have no empty mark.
-/

/-- What marks the places to bind. -/
structure Settings where
  /-- What the name of a directive's attribute starts with. -/
  lead : String
  /-- What opens a marker in text. -/
  opening : String
  /-- What closes a marker in text. -/
  closing : String
  /-- Whether unknown directives are errors; else they are skipped. -/
  strict : Bool
deriving DecidableEq

namespace Settings

/-- The usual marks. -/
def standard : Settings := ⟨"v-", "\x7b\x7b", "\x7d\x7d", true⟩

/-- Whether the settings are of use. -/
def validate (s : Settings) : Except TemplateError Unit :=
  if s.lead.isEmpty then .error (.invalidSettings "directive_prefix must not be empty")
  else if s.opening.isEmpty || s.closing.isEmpty then
    .error (.invalidSettings "interpolation delimiters must not be empty")
  else .ok ()

end Settings

end Bindery
