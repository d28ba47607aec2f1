import ArchFlow.Element.Basic
import ArchFlow.Json.Fault
import ArchFlow.Files.Fault

/-!
# Failures

Why a request fails. Providers of facts report failures of their own, so each cause that they may share with the
library also has a form that only carries a message.

* `Failure.message`: what is said about a failure.
* `Failure.isNotApplicable`: the expected failure of asking an element for an attribute that it does not have.
-/

namespace ArchFlow

/-- Why an element cannot be registered. -/
inductive Conflict
  /-- The type of the element is not within that of its slot. -/
  | misfit (declared slot : ElementType)
  /-- One slot has the element under two types, neither of which is within the other. -/
  | clash (kept declared slot : ElementType)
  | reported (message : String)

/-- Why a provider of facts fails. -/
inductive ProviderFault
  | unreadableFacts (path : String) (fault : FileFault)
  | reported (message : String)

/-- Why the configuration cannot be loaded or saved. -/
inductive ConfigFault
  | unreadable (path : String) (fault : FileFault)
  | undecodable (path : String) (fault : Json.Fault)
  | noDirectory (path : String) (fault : FileFault)
  | unwritable (path : String) (fault : FileFault)
  | notRenamed (source target : String) (fault : FileFault)
  | reported (message : String)

/-- Why a request fails. -/
inductive Failure
  | unknownElement (id : ElementId)
  | attributeNotApplicable (name : String) (id : ElementId)
  | conflictingRegistration (id : ElementId) (conflict : Conflict)
  | provider (fault : ProviderFault)
  | config (fault : ConfigFault)
  | io (message : String)
  | json (fault : Json.Fault)

/-! ## Messages -/

/-- A path in a message. -/
def quotedPath (path : String) : String := "'" ++ path ++ "'"

/-- What is said about a conflict. -/
def Conflict.message : Conflict → String
  | .misfit declared slot => "declared type " ++ declared.text ++ " does not fit slot " ++ slot.text
  | .clash kept declared slot =>
    "registered as both " ++ kept.text ++ " and " ++ declared.text ++ " in slot " ++ slot.text
  | .reported message => message

/-- What is said about the failure of a provider. -/
def ProviderFault.message : ProviderFault → String
  | .unreadableFacts path fault => "failed to read fact file " ++ quotedPath path ++ ": " ++ fault.message
  | .reported message => message

/-- What is said about the configuration. -/
def ConfigFault.message : ConfigFault → String
  | .unreadable path fault => "failed to read config file " ++ quotedPath path ++ ": " ++ fault.message
  | .undecodable path fault => "failed to parse config file " ++ quotedPath path ++ ": " ++ fault.message
  | .noDirectory path fault => "failed to create directory " ++ quotedPath path ++ ": " ++ fault.message
  | .unwritable path fault =>
    "failed to write temporary config file " ++ quotedPath path ++ ": " ++ fault.message
  | .notRenamed source target fault =>
    "failed to rename " ++ quotedPath source ++ " to " ++ quotedPath target ++ ": " ++ fault.message
  | .reported message => message

namespace Failure

/-- What is said about a failure. -/
def message : Failure → String
  | .unknownElement id => "unknown element: " ++ id
  | .attributeNotApplicable name id =>
    "attribute '" ++ name ++ "' is not applicable to element " ++ id
  | .conflictingRegistration id conflict =>
    "conflicting registration for element " ++ id ++ ": " ++ conflict.message
  | .provider fault => "provider error: " ++ fault.message
  | .config fault => "config error: " ++ fault.message
  | .io message => "io error: " ++ message
  | .json fault => "json error: " ++ fault.message

/-- Whether an element was asked for an attribute that it does not have. -/
def isNotApplicable : Failure → Bool
  | .attributeNotApplicable .. => true
  | _ => false

end Failure

end ArchFlow
