import Statechart.Json.Reader
import Statechart.Text.Markup
import Statechart.Value.Display

/-!
# Why an operation fails

Every failure is a cause: an inductive value with what is needed to report it. `Error.kind` is the
word under which a cause is reported and `Error.message` is its wording, which for an operation that
fails, a patch, bytes that are no text and markup is composed elsewhere. A failure while an event is
processed leaves the interpreter as it was, so an error carries no state.
-/

namespace Statechart

/-- An operation on a dynamic value that the value does not support. -/
inductive Fault where
  | wrongType
  | missingKey
  | indexOutOfRange
  | missingAttribute
  | wrongLength
  | noActiveChild
  | overflow
deriving DecidableEq

/-- Why an interpreter configuration is refused. -/
inductive ConfigFault where
  | updateNotCallable
  | mergeNotCallable
  | factoriesNotMapping
  | factoryNotCallable (name : Value)

/-- Why a machine configuration is refused. -/
inductive DefinitionFault where
  | notTable
  | dottedKey (key : Value)
  | duplicateId (id : Value)
  | noInitial (id : Value)
  | initialNotChild (initial id : Value)
  | invalidTransition (item : Value)
  | guardNotCallable (id : Value)
  | unknownId (target : String)
  | unknownTarget (target : String) (id : Value)

/-- Why a path does not lead to a file. -/
inductive FileFault where
  | missing
  | isFolder
  | throughFile
  | tooLong
  | zeroCharacter
deriving DecidableEq

/-- Why an interpreter or a file of events cannot be loaded. -/
inductive LoadFault where
  | malformedReference (reference : String)
  | noModule (wanted missing : String) (parent : Option String)
  | noAttribute (wanted path : String)
  | notInterpreter (reference typeName : String)
  | invalidEvent (path : String) (line : Nat) (fault : Json.Fault)

/-- Why a patch cannot be applied. -/
inductive PatchFault where
  | invalid
  | pointer
  | conflict
  | notFound
  | testFailed
  | endless
deriving DecidableEq

/-- A cause of failure. -/
inductive Error where
  | fault (f : Fault)
  | actionFailed (message : String)
  | invalidAction (raw : Value)
  | executableNotCallable (raw executable : Value)
  | notDescriptor (value : Value)
  | noActions (state : Value)
  | unresolvedFactory (name descriptor : Value)
  | invalidResult (descriptor result : Value)
  | invalidEvent (event : Value)
  | config (f : ConfigFault)
  | definition (f : DefinitionFault)
  | load (f : LoadFault)
  | recipeNotCallable (recipe : Value)
  | recipeChangedAndReturned (returned : Value)
  | unsupportedState (state : Value)
  | patch (f : PatchFault)
  | patchText (f : Json.Fault)
  | eventText (f : Json.Fault)
  | file (path : String) (f : FileFault)
  | markup (f : Text.Markup.Fault)
  | undecodable
  | missingArguments (function : String) (names : List String)
  | refused (reason : String)
  | relativeReference (name : String)

namespace Error

/-- An operation on a value of the wrong type. -/
abbrev wrongType : Error :=
  .fault .wrongType

/-- A key that is not there. -/
abbrev missingKey : Error :=
  .fault .missingKey

/-- An attribute that is not there. -/
abbrev missingAttribute : Error :=
  .fault .missingAttribute

end Error

/-- The word for an unsupported operation. -/
def Fault.kind : Fault → String
  | .wrongType => "TypeError"
  | .missingKey => "KeyError"
  | .indexOutOfRange => "IndexError"
  | .missingAttribute => "AttributeError"
  | .wrongLength => "ValueError"
  | .noActiveChild => "StopIteration"
  | .overflow => "OverflowError"

/-- The word for a failed patch. -/
def PatchFault.kind : PatchFault → String
  | .invalid => "InvalidJsonPatch"
  | .pointer => "JsonPointerException"
  | .conflict => "JsonPatchConflict"
  | .notFound => "JsonPatchPathNotFound"
  | .testFailed => "JsonPatchTestFailed"
  | .endless => "RecursionError"

/-- The word for a path that does not lead to a file. -/
def FileFault.kind : FileFault → String
  | .missing => "FileNotFoundError"
  | .isFolder => "IsADirectoryError"
  | .throughFile => "NotADirectoryError"
  | .tooLong => "OSError"
  | .zeroCharacter => "ValueError"

/-- The word under which an error is reported. -/
def Error.kind : Error → String
  | .fault f => f.kind
  | .actionFailed _ => "ActionFailed"
  | .invalidAction _ => "InvalidActionShapeError"
  | .executableNotCallable .. => "UnexpectedDescriptorError"
  | .notDescriptor _ => "UnexpectedDescriptorError"
  | .noActions _ => "UnexpectedDescriptorError"
  | .unresolvedFactory .. => "UnresolvedActionFactoryError"
  | .invalidResult .. => "InvalidActionResultError"
  | .invalidEvent _ => "InvalidEventError"
  | .config _ => "InterpreterConfigError"
  | .definition _ => "MachineDefinitionError"
  | .load _ => "LoaderError"
  | .recipeNotCallable _ => "TypeError"
  | .recipeChangedAndReturned _ => "TypeError"
  | .unsupportedState _ => "TypeError"
  | .patch f => f.kind
  | .patchText f => f.limit?.getD "JSONDecodeError"
  | .eventText f => f.limit?.getD "ValueError"
  | .file _ f => f.kind
  | .markup .malformed => "MarkupError"
  | .markup .malformedNumber => "ValueError"
  | .undecodable => "UnicodeDecodeError"
  | .missingArguments .. => "TypeError"
  | .refused _ => "TypeError"
  | .relativeReference _ => "TypeError"

/-- The wording of a refused interpreter configuration. -/
def ConfigFault.message : ConfigFault → String
  | .updateNotCallable => "update_state must be callable"
  | .mergeNotCallable => "merge_outputs must be callable"
  | .factoriesNotMapping => "action_factory_map must be a mapping"
  | .factoryNotCallable name => "Action factory for " ++ name.display ++ " is not callable"

/-- The wording of a refused machine configuration. -/
def DefinitionFault.message : DefinitionFault → String
  | .notTable => "Machine configuration must be a dict"
  | .dottedKey key => "State key must not contain '.': " ++ key.display
  | .duplicateId id => "Duplicate state id: " ++ id.display
  | .noInitial id => "Compound state " ++ id.display ++ " has no initial state"
  | .initialNotChild initial id =>
      "Initial state " ++ initial.display ++ " is not a child of " ++ id.display
  | .invalidTransition item => "Invalid transition: " ++ item.display
  | .guardNotCallable id => "Guard on " ++ id.display ++ " is not callable"
  | .unknownId target => "Unknown state id in target " ++ Value.quoted target
  | .unknownTarget target id => "Unknown target " ++ Value.quoted target ++ " from " ++ id.display

/-- The wording of a failure to load. -/
def LoadFault.message : LoadFault → String
  | .malformedReference reference =>
      "Expected 'module:attribute', got " ++ Value.quoted reference
  | .noModule wanted missing parent =>
      "Cannot import " ++ Value.quoted wanted ++ ": No module named " ++ Value.quoted missing
        ++ match parent with
          | none => ""
          | some p => "; " ++ Value.quoted p ++ " is not a package"
  | .noAttribute wanted path => Value.quoted wanted ++ " has no attribute " ++ Value.quoted path
  | .notInterpreter reference typeName =>
      Value.quoted reference ++ " did not produce an Interpreter (got " ++ typeName ++ ")"
  | .invalidEvent path line fault =>
      path ++ ":" ++ toString line ++ ": invalid JSON event: " ++ fault.message

/-- The wording of a path that does not lead to a file. -/
def FileFault.message (path : String) : FileFault → String
  | .missing => "[Errno 2] No such file or directory: " ++ Value.quoted path
  | .isFolder => "[Errno 21] Is a directory: " ++ Value.quoted path
  | .throughFile => "[Errno 20] Not a directory: " ++ Value.quoted path
  | .tooLong => "[Errno 36] File name too long: " ++ Value.quoted path
  | .zeroCharacter => "embedded null byte"

/-- Quoted names in a list whose last two are joined by `and`. -/
def nameList : List String → String
  | [] => ""
  | [a] => Value.quoted a
  | [a, b] => Value.quoted a ++ " and " ++ Value.quoted b
  | names => ", ".intercalate (names.dropLast.map Value.quoted) ++ ", and "
      ++ Value.quoted (names.getLastD "")

/-- The wording of an error; `composed` words those that are not errors of this library. -/
def Error.message (composed : Error → String) : Error → String
  | .actionFailed message => message
  | .invalidAction raw =>
      "Action must be a callable, a string or carry a 'type', got " ++ raw.display
  | .executableNotCallable _ executable =>
      "Action 'exec' must be callable, got " ++ executable.typeName
  | .notDescriptor value => "Unexpected descriptor type: " ++ value.typeName
  | .noActions _ => "Transition engine returned a state without an 'actions' list"
  | .unresolvedFactory name _ => "No action factory registered for action: " ++ name.display
  | .invalidResult _ result =>
      "Action factory must return (updates, outputs), got " ++ result.display
  | .invalidEvent event => "Event has no string type: " ++ event.display
  | .config f => f.message
  | .definition f => f.message
  | .load f => f.message
  | .recipeNotCallable recipe =>
      "Copy-on-write updates must be a callable recipe, got " ++ recipe.typeName
  | .recipeChangedAndReturned returned =>
      "Copy-on-write recipe modified its draft and also returned " ++ returned.typeName
        ++ "; return None or leave the draft untouched"
  | .unsupportedState state => "Unsupported control state: " ++ state.display
  | .eventText f => f.message
  | .file path f => f.message path
  | .missingArguments function names =>
      function ++ "() missing " ++ toString names.length ++ " required positional argument"
        ++ (if names.length = 1 then "" else "s") ++ ": " ++ nameList names
  | .refused reason => reason
  | .relativeReference name =>
      "the 'package' argument is required to perform a relative import for " ++ Value.quoted name
  | e => composed e

/-- Whether what the wording of a refused machine configuration shows has a text. -/
def DefinitionFault.hasText : DefinitionFault → Bool
  | .dottedKey key => key.hasText
  | .duplicateId id => id.hasText
  | .noInitial id => id.hasText
  | .initialNotChild initial id => initial.hasText && id.hasText
  | .invalidTransition item => item.hasText
  | .guardNotCallable id => id.hasText
  | .unknownTarget _ id => id.hasText
  | .notTable => true
  | .unknownId _ => true

/-- Whether what an error about an action or a machine configuration shows has a text. -/
def Error.hasText : Error → Bool
  | .definition f => f.hasText
  | .invalidAction raw => raw.hasText
  | .unresolvedFactory name _ => name.hasText
  | .invalidResult _ result => result.hasText
  | _ => true

/-- An error, or the failure to word it. -/
def Error.worded (e : Error) : Error :=
  if e.hasText then e else .fault .wrongLength

/-- The value at which an action failed, for the errors about actions. -/
def Error.descriptor? : Error → Option Value
  | .invalidAction raw => some raw
  | .executableNotCallable raw _ => some raw
  | .notDescriptor value => some value
  | .noActions state => some state
  | .unresolvedFactory _ descriptor => some descriptor
  | .invalidResult descriptor _ => some descriptor
  | _ => none

end Statechart
