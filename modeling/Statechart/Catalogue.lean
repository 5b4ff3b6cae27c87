import Statechart.Examples.Named

/-!
# Interpreters by reference

A reference `module:attribute` names something in a module of a fixed catalogue. `load` follows it
and gives an interpreter if it names one or a function without arguments that makes one; every other
reference is an error that says how far it led.
-/

namespace Statechart.Catalogue

/-- What an attribute stands for: a value of a type, a module of the catalogue, a function that
makes a value without arguments, a function that needs arguments, something that refuses to be
called for a reason, or a function that makes the interpreter of an example. -/
inductive Item where
  | value (typeName : String)
  | inner (moduleName : String)
  | maker (typeName : String)
  | needing (label : String) (arguments : List String)
  | refusing (reason : String)
  | builder (machine : String)

/-- The attributes of a module, by name. -/
structure Module where
  name : String
  attributes : List (String × Item)

/-- The arguments of an action factory. -/
def factoryArguments (state : String) : List String :=
  [state, "event", "action"]

/-- Names that every module has. -/
def common : List (String × Item) :=
  [("__name__", .value "str"), ("__doc__", .value "str"), ("__file__", .value "str"),
    ("__package__", .value "str"), ("__cached__", .value "str"), ("__spec__", .value "ModuleSpec"),
    ("__loader__", .value "SourceFileLoader"), ("__builtins__", .value "dict"),
    ("__annotations__", .value "dict"), ("__dict__", .value "dict")]

/-- The names of the interpreter's own library. -/
def core : List (String × Item) :=
  [("ActionResult", .maker "ActionResult"),
    ("Interpreter", .needing "Interpreter.__init__" ["machine", "config"]),
    ("InterpreterConfig", .needing "InterpreterConfig.__init__"
      ["update_state", "merge_outputs", "action_factory_map"]),
    ("create_interpreter", .needing "create_interpreter"
      ["machine_factory", "machine_config", "config"])]

/-- The names that the library and its core share. -/
def shared : List (String × Item) :=
  core ++
    [("INIT_EVENT", .value "str"), ("NO_OUTPUT", .value "NoneType"),
      ("Embedded", .needing "Embedded.__init__" ["factory"]),
      ("Named", .needing "Named.__init__" ["name"]),
      ("process_event", .needing "process_event" ["machine", "state", "event", "config"]),
      ("__all__", .value "list"), ("__path__", .value "list")]

/-- A name for containers of a type that only annotates. -/
def container (name typeName : String) : String × Item :=
  (name, .refusing
    ("Type " ++ name ++ " cannot be instantiated; use " ++ typeName ++ "() instead"))

/-- A class of errors whose instances need a message; `label` is the class that says so. -/
def messaged (name label : String) : String × Item :=
  (name, .needing (label ++ ".__init__") ["message"])

/-- The classes of errors. -/
def errorClasses : List (String × Item) :=
  [("StatefoldError", .maker "StatefoldError"),
    ("InterpreterConfigError", .maker "InterpreterConfigError"),
    ("MachineDefinitionError", .maker "MachineDefinitionError"),
    ("LoaderError", .maker "LoaderError"),
    messaged "InterpreterError" "InterpreterError",
    messaged "InvalidActionShapeError" "InterpreterError",
    messaged "UnexpectedDescriptorError" "InterpreterError",
    messaged "InvalidActionResultError" "InvalidActionResultError",
    messaged "InvalidEventError" "InvalidEventError",
    ("UnresolvedActionFactoryError", .needing "UnresolvedActionFactoryError.__init__" ["name"])]

/-- The names that only the core has. -/
def coreNames : List (String × Item) :=
  [("event_type", .needing "event_type" ["event"]),
    ("event_object", .needing "event_object" ["event"]),
    ("as_descriptor", .needing "as_descriptor" ["raw"]),
    ("resolve_action_factory",
      .needing "resolve_action_factory" ["descriptor", "factory_map"]),
    ("canonicalize", .needing "canonicalize" ["obj"]),
    ("canonical_json_bytes", .needing "canonical_json_bytes" ["obj"]),
    ("canonical_json_str", .needing "canonical_json_str" ["obj"]),
    ("digest", .needing "digest" ["obj"]),
    ("InterpreterState",
      .needing "InterpreterState.__init__" ["control_state", "extended_state"]),
    ("ActionDescriptor", .refusing "Cannot instantiate typing.Union"),
    ("TransitionEngine", .refusing "Protocols cannot be instantiated")]

/-- The names that the modules of the examples share. -/
def exampleNames (name : String) : List (String × Item) :=
  common ++ core ++
    [("Any", .refusing "Any cannot be instantiated"), container "Dict" "dict",
      ("create_machine", .needing "create_machine" ["config"]),
      ("concat_outputs", .needing "concat_outputs" ["accumulated", "outputs"]),
      ("ACTION_FACTORIES", .value "dict"), ("machine_config", .maker "dict"),
      ("interpreter_config", .maker "InterpreterConfig"), ("build_interpreter", .builder name)]

/-- The copy-on-write reducer. -/
def copyOnWrite : String × Item :=
  ("copy_on_write_reducer", .needing "copy_on_write_reducer" ["extended_state", "recipe"])

/-- The modules that references can name. -/
def modules : List Module :=
  [⟨"statefold", common ++ shared ++
      [("__version__", .value "str"), ("core", .inner "statefold.core"),
        ("examples", .inner "statefold.examples")]⟩,
    ⟨"statefold.core", common ++ shared ++ coreNames ++ errorClasses⟩,
    ⟨"statefold.examples", common ++
      [("__path__", .value "list"), ("door", .inner "statefold.examples.door"),
        ("intersection", .inner "statefold.examples.intersection"),
        ("traffic_light", .inner "statefold.examples.traffic_light")]⟩,
    ⟨"statefold.examples.door", exampleNames "door" ++
      [("INITIAL_CONTEXT", .value "dict"), ("NO_JSON_PATCH_UPDATES", .value "list"),
        ("json_patch_reducer", .needing "json_patch_reducer" ["extended_state", "operations"]),
        ("cancel_admin", .needing "cancel_admin" (factoryArguments "context")),
        ("log_error_entry", .needing "log_error_entry" (factoryArguments "context"))]⟩,
    ⟨"statefold.examples.intersection", exampleNames "intersection" ++
      [("COLOURS", .value "tuple"), ("NEXT_COLOUR", .value "dict"), copyOnWrite,
        ("announce", .needing "announce" (factoryArguments "counts")),
        ("_light", .needing "_light" ["name", "initial"])]⟩,
    ⟨"statefold.examples.traffic_light", exampleNames "traffic_light" ++
      [container "List" "list", ("EMPTY_HISTORY", .value "list"), copyOnWrite,
        ("inc_green_timer", .needing "inc_green_timer" (factoryArguments "history")),
        ("inc_yellow_timer", .needing "inc_yellow_timer" (factoryArguments "history")),
        ("_drop_two", .needing "_drop_two" ["draft"]),
        ("log_green", .needing "log_green" (factoryArguments "history"))]⟩]

/-- The modules that hold others. -/
def packages : List String :=
  ["statefold", "statefold.core", "statefold.examples"]

/-- An interpreter together with its machine. -/
structure Loaded where
  machine : Machine
  interpreter : Interpreter

/-- The dotted names of a module and those around it, the outermost first. -/
def enclosing (name : String) : List String :=
  let keys := Path.keysOf name
  (List.range keys.length).map fun n => Path.dotted (keys.take (n + 1))

/-- The module with the given name, or the first name on the way to it that is none. -/
def findModule (name : String) : Except Error Module :=
  match (enclosing name).find? fun n => !modules.any fun m => m.name == n with
  | some missing =>
      let parent := ((enclosing name).takeWhile (· ≠ missing)).getLast?
      .error (.load (.noModule name missing (parent.filter fun p => !packages.contains p)))
  | none =>
      match modules.find? fun m => m.name == name with
      | some m => .ok m
      | none => .error (.load (.noModule name name none))

/-- The attribute of an item: a module has its own, and functions have names and can be called. -/
def Item.attribute? (i : Item) (name : String) : Option Item :=
  match i with
  | .value _ => none
  | .inner moduleName =>
      (modules.find? fun m => m.name == moduleName).bind fun m => m.attributes.lookup name
  | i =>
      if name = "__call__" then some i
      else if ["__name__", "__qualname__", "__module__"].contains name then some (.value "str")
      else none

/-- Follows the attributes of an item. -/
def follow : Item → List String → Option Item
  | i, [] => some i
  | i, name :: names => (i.attribute? name).bind fun i => follow i names

/-- Follows the attributes of a module. -/
def Module.follow? (m : Module) : List String → Option Item
  | [] => none
  | name :: names => (m.attributes.lookup name).bind fun i => follow i names

/-- The interpreter of an example. -/
def build (e : Examples.Example) : Except Error Loaded := do
  return ⟨← Machine.define e.machine, ← e.build Examples.host .null⟩

/-- The interpreter that an item makes. -/
def Item.make (i : Item) (reference : String) : Except Error Loaded :=
  match i with
  | .value typeName => .error (.load (.notInterpreter reference typeName))
  | .inner _ => .error (.load (.notInterpreter reference "module"))
  | .maker typeName => .error (.load (.notInterpreter reference typeName))
  | .needing label arguments => .error (.missingArguments label arguments)
  | .refusing reason => .error (.refused reason)
  | .builder name =>
      match Examples.find? name with
      | some e => build e
      | none => .error .missingKey

/-- The interpreter that a reference names. -/
def load (reference : String) : Except Error Loaded := do
  let cs := reference.toList
  let name := String.ofList (cs.takeWhile (· ≠ ':'))
  let path := String.ofList ((cs.dropWhile (· ≠ ':')).drop 1)
  if name.isEmpty || path.isEmpty then .error (.load (.malformedReference reference))
  if name.toList.head? = some '.' then .error (.relativeReference name)
  let m ← findModule name
  match m.follow? (Path.keysOf path) with
  | none => .error (.load (.noAttribute name path))
  | some i => i.make reference

end Statechart.Catalogue
