import Bindery.Fault
import Bindery.Markup.Reader

namespace Bindery

/-!
# What can go wrong with templates

* `TemplateError` — the reasons why a template cannot be bound, or a view model not be used.
* `TemplateError.message` — their texts.
* `TemplateError.toFault` — the fault of a reaction that meets such an error.
-/

/-- A failed binding, or a failed access through a view model. -/
inductive TemplateError where
  /-- An attribute names a directive that does not exist. -/
  | unknownDirective (attr element : String)
  /-- An attribute has nothing where the name of a directive should be. -/
  | malformedDirective (attr : String)
  /-- A directive for events names no event. -/
  | missingEventName (attr : String)
  /-- The view model has no such method. -/
  | unknownMethod (name : String)
  /-- The view model has no such member. -/
  | unknownProperty (name : String)
  /-- The view model has no element, hence no store. -/
  | unmounted
  /-- Markup from data keeps bringing markup from data. -/
  | injectionTooDeep (limit : Nat)
  | markup (error : MarkupError)
  /-- A settings document is not valid, or gives a setting the wrong type. -/
  | unreadableSettings
  /-- The settings are readable but of no use. -/
  | invalidSettings (reason : String)
  /-- A read, a write or a reaction failed. -/
  | fault (fault : Fault)
deriving DecidableEq

namespace TemplateError

/-- The text of an error. -/
def message : TemplateError → String
  | unknownDirective attr element =>
    "unknown directive `" ++ attr ++ "` on <" ++ element ++ ">"
  | malformedDirective attr => "malformed directive attribute `" ++ attr ++ "`"
  | missingEventName attr =>
    "directive `" ++ attr ++ "` requires an event name after `:`"
  | unknownMethod name => "unknown method `" ++ name ++ "`"
  | unknownProperty name => "unknown property `" ++ name ++ "`"
  | unmounted => "view model has no root element"
  | injectionTooDeep limit =>
    "injected markup nested deeper than " ++ toString limit ++ " levels"
  | markup error => "markup parse error: " ++ error.message
  | unreadableSettings => "failed to load template settings"
  | invalidSettings reason => "invalid template settings: " ++ reason
  | fault f => f.message

/-- The fault of a reaction: a fault as it is, any other error by its text. -/
def toFault : TemplateError → Fault
  | fault f => f
  | error => .reaction error.message

end TemplateError

end Bindery
