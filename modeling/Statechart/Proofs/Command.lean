import Statechart.Command
import Statechart.Proofs.EventFile
import Statechart.Proofs.Examples.Door
import Statechart.Proofs.Replay
import Statechart.Proofs.Text.Markup
import Statechart.Proofs.Text.Wrap

/-!
# Runs that fail

`Fails` lists the ways in which a run fails, each with its error. As JSON the error is printed as it
is and can be read back. As text it is printed as markup, so all of it is printed when nothing in it
has a meaning as markup; a tag that closes nothing ends the program instead: `failing_run_reported`.

The console is a parameter: `Console.Faithful` is what is asked of it, and `of_width_faithful` says
that the console of the command line is one of that kind.
-/

namespace Statechart

namespace Report.Console

/-- A console that shows text as it is behind a styled heading, when nothing in either has a meaning
as markup, and that breaks text into lines without losing more than blanks. -/
structure Faithful (console : Console) : Prop where
  headed : ∀ {heading text : List Char}, heading ≠ [] → Text.Markup.isPlain heading = true →
    Text.Markup.isVerbatim heading = true → Text.Markup.isVerbatim text = true →
      console.render (Text.Markup.headed heading text) = .ok (heading ++ ' ' :: text)
  ink : ∀ {cs : List Char}, Text.Steady cs →
    (console.lines cs).flatMap (fun l => Text.ink l.toList) = Text.ink cs

/-- A console is faithful if its lines have room for every character. -/
theorem of_width_faithful {width : Nat} (h : 2 ≤ width) : (Console.ofWidth width).Faithful where
  headed hne hplain hheading htext := Text.Markup.render_headed hne hplain hheading htext
  ink hcs := by
    simp only [Console.ofWidth, List.flatMap_map, String.toList_ofList]
    exact Text.wrap_ink h hcs

end Report.Console

namespace Command

open Report (Printed)

variable {setting : Setting} {reference path : String} {start : Bool} {logLevel : Option String}
  {e : Error} {logs : List String}

/-! ## Failures -/

variable (setting reference path start logLevel) in
/-- A run fails with an error, and the log lines in front of its report: the interpreter or the
events cannot be loaded, or an event cannot be processed. -/
inductive Fails : Error → List String → Prop where
  | interpreter {e : Error} (h : Catalogue.load reference = .error e) : Fails e []
  | events {e : Error} {l : Catalogue.Loaded} (hl : Catalogue.load reference = .ok l)
      (h : EventFile.read Value.loads setting.chunk path (setting.files path) = .error e) :
      Fails e []
  | event {e : Error} {l : Catalogue.Loaded} {events : List Value} {t : Replay.Trace}
      (hl : Catalogue.load reference = .ok l)
      (hevents : EventFile.read Value.loads setting.chunk path (setting.files path) = .ok events)
      (ht : Replay.run Examples.host l.interpreter (.newList events) start (some reference) = t)
      (h : t.failure = some e) : Fails e (logLines setting logLevel t.logs)

/-- A run that fails reports its error. -/
theorem execute_run_of_fails (h : Fails setting reference path start logLevel e logs)
    (json : Bool) : executeRun setting reference path start json logLevel =
      runError setting json path logs e := by
  cases h with
  | interpreter h => simp [executeRun, h]
  | events hl h => simp [executeRun, hl, h]
  | event hl hevents ht h => simp [executeRun, hl, hevents, ht, h]

/-! ## Reports -/

/-- The heading under which an error is printed. -/
def errorHeading : Error → String
  | .file _ .missing => "Error: Event file not found:"
  | e => "Error (" ++ e.kind ++ "):"

/-- What is printed of an error: the path of a file that is missing, and otherwise its message. -/
def errorSubject (composed : Error → String) (path : String) : Error → String
  | .file _ .missing => path
  | e => e.message composed

/-- What the report of an error as JSON holds. -/
def errorMembers (composed : Error → String) (path : String) : Error → List (String × String)
  | .file _ .missing => [("error", "Event file not found"), ("path", path)]
  | e => [("error", e.message composed), ("type", e.kind)]

theorem run_error_json (setting : Setting) (path : String) (logs : List String) (e : Error) :
    runError setting true path logs e =
      .ok (Report.errorJson logs (errorMembers setting.composed path e)) := by
  cases e with
  | file _ f => cases f <;> rfl
  | _ => rfl

/-- As text, an error is printed as markup behind its heading. -/
theorem run_error_text (setting : Setting) (path : String) (logs : List String) (e : Error) :
    runError setting false path logs e = Report.errorText setting.console logs
      (String.ofList (Text.Markup.headed (errorHeading e).toList
        (errorSubject setting.composed path e).toList)) := by
  have hmissing : "[red]Error: Event file not found:[/red] " ++ path = String.ofList
      (Text.Markup.headed "Error: Event file not found:".toList path.toList) := by
    apply String.toList_injective
    simp [Text.Markup.headed, Text.Markup.red]
  have herror : "[red]Error (" ++ e.kind ++ "):[/red] " ++ e.message setting.composed =
      String.ofList (Text.Markup.headed ("Error (" ++ e.kind ++ "):").toList
        (e.message setting.composed).toList) := by
    apply String.toList_injective
    simp [Text.Markup.headed, Text.Markup.red]
  cases e with
  | file _ f =>
      cases f with
      | missing => exact congrArg (Report.errorText setting.console logs) hmissing
      | _ => exact congrArg (Report.errorText setting.console logs) herror
  | _ => exact congrArg (Report.errorText setting.console logs) herror

/-- The words under which errors are reported. -/
def errorKinds : List String :=
  ["ActionFailed", "AttributeError", "FileNotFoundError", "IndexError", "InterpreterConfigError",
    "InvalidActionResultError", "InvalidActionShapeError", "InvalidEventError", "InvalidJsonPatch",
    "IsADirectoryError", "JSONDecodeError", "JsonPatchConflict", "JsonPatchPathNotFound",
    "JsonPatchTestFailed", "JsonPointerException", "KeyError", "LoaderError",
    "MachineDefinitionError", "MarkupError", "NotADirectoryError", "OSError", "OverflowError",
    "RecursionError", "StopIteration", "TypeError", "UnexpectedDescriptorError",
    "UnicodeDecodeError", "UnicodeEncodeError", "UnresolvedActionFactoryError", "ValueError"]

theorem kind_mem_error_kinds (e : Error) : e.kind ∈ errorKinds := by
  cases e with
  | fault f | patch f | file _ f | markup f =>
      cases f <;> simp [errorKinds, Error.kind, Fault.kind, PatchFault.kind, FileFault.kind]
  | patchText f | eventText f =>
      cases f <;> simp [errorKinds, Error.kind, Json.Fault.limit?]
  | _ => simp [errorKinds, Error.kind]

/-- Nothing in a heading has a meaning as markup, and nothing in it changes the width of its
neighbours. -/
theorem heading_verbatim (e : Error) : (errorHeading e).toList ≠ [] ∧
    Text.Markup.isPlain (errorHeading e).toList = true ∧
    Text.Markup.isVerbatim (errorHeading e).toList = true ∧
    Text.Steady (errorHeading e).toList := by
  have hkinds : ∀ k ∈ errorKinds, ∀ cs, cs = "Error (".toList ++ k.toList ++ "):".toList →
      cs ≠ [] ∧ Text.Markup.isPlain cs = true ∧ Text.Markup.isVerbatim cs = true ∧
        Text.Steady cs := by
    simp only [forall_eq]
    decide +kernel
  have hmissing : "Error: Event file not found:".toList ≠ [] ∧
      Text.Markup.isPlain "Error: Event file not found:".toList = true ∧
      Text.Markup.isVerbatim "Error: Event file not found:".toList = true ∧
      Text.Steady "Error: Event file not found:".toList := by decide +kernel
  have hkind := hkinds e.kind (kind_mem_error_kinds e) _ rfl
  rw [← String.toList_append, ← String.toList_append] at hkind
  cases e with
  | file _ f =>
      cases f with
      | missing => exact hmissing
      | _ => exact hkind
  | _ => exact hkind

/-- What is printed of an error as text: its heading, and its message or path. -/
def errorText (composed : Error → String) (path : String) (e : Error) : List Char :=
  (errorHeading e ++ " " ++ errorSubject composed path e).toList

/-- The report of an error as text is its heading and what is printed of it, as they are, when
nothing in the latter has a meaning as markup. -/
theorem run_error_verbatim (hconsole : setting.console.Faithful) (logs : List String)
    (h : Text.Markup.isVerbatim (errorSubject setting.composed path e).toList = true) :
    runError setting false path logs e =
      .ok ⟨logs ++ setting.console.lines (errorText setting.composed path e), 2⟩ := by
  obtain ⟨hne, hplain, hheading, -⟩ := heading_verbatim e
  have hcell : Report.markupCell setting.console (String.ofList (Text.Markup.headed
      (errorHeading e).toList (errorSubject setting.composed path e).toList)) =
        .ok (errorText setting.composed path e) := by
    rw [Report.markupCell, String.toList_ofList, hconsole.headed hne hplain hheading h]
    simp [Except.mapError, errorText]
  rw [run_error_text, Report.errorText, Report.markupLines, hcell]
  rfl

theorem error_text_steady {composed : Error → String}
    (h : Text.Steady (errorSubject composed path e).toList) :
    Text.Steady (errorText composed path e) := by
  obtain ⟨-, -, -, hheading⟩ := heading_verbatim e
  rw [errorText, String.toList_append, String.toList_append]
  exact Text.steady_append.mpr ⟨Text.steady_append.mpr ⟨hheading, by decide⟩, h⟩

/-- The JSON of an error is read back. -/
theorem read_error_json (members : List (String × String)) :
    Json.read ((Json.obj (members.map fun m => (m.1, .str m.2))).write Json.spacedAscii) =
      .ok (.obj (members.map fun m => (m.1, .str m.2))) := by
  have hreadable : Json.Readable 0 (.obj (members.map fun m => (m.1, .str m.2))) :=
    .obj (by decide) (List.forall_mem_map.mpr fun m _ => .str m.2)
  have hread := hreadable.read_write Json.spaced_ascii_one_line (List.forall_mem_nil _)
  rwa [List.append_nil] at hread

/-- The reference to the interpreter of the door. -/
def door : String :=
  "statefold.examples.door:build_interpreter"

/-- The reference names the function that makes the door. -/
theorem follow_door : ∃ m, Catalogue.findModule "statefold.examples.door" = .ok m ∧
    m.follow? (Path.keysOf "build_interpreter") = some (.builder "door") := by
  have hnames : Catalogue.enclosing "statefold.examples.door" =
      ["statefold", "statefold.examples", "statefold.examples.door"] := by decide +kernel
  have hfound : (["statefold", "statefold.examples", "statefold.examples.door"].find? fun n =>
      !Catalogue.modules.any fun m => m.name == n) = none := by decide +kernel
  have hkeys : Path.keysOf "build_interpreter" = ["build_interpreter"] := by decide +kernel
  rw [Catalogue.findModule, hnames, hfound, hkeys]
  refine ⟨_, rfl, ?_⟩
  simp [Catalogue.Module.follow?, Catalogue.exampleNames, Catalogue.common, Catalogue.core,
    Catalogue.container, Catalogue.follow, List.lookup_cons]

/-- The reference leads to an interpreter that shows a door which an admin has shut. -/
theorem load_door : ∃ l, Catalogue.load door = .ok l ∧
    (⟨.idle, true⟩ : Examples.Door.Lock).ShownBy l.interpreter := by
  have hname : String.ofList (door.toList.takeWhile (· ≠ ':')) = "statefold.examples.door" := by
    decide +kernel
  have hpath : String.ofList ((door.toList.dropWhile (· ≠ ':')).drop 1) = "build_interpreter" := by
    decide +kernel
  obtain ⟨m, hmodule, hitem⟩ := follow_door
  obtain ⟨e, i, hfind, hbuild, hi⟩ := Examples.Door.exists_build
  obtain rfl : (⟨"door", Examples.Door.machine, Examples.Door.config⟩ : Examples.Example) = e :=
    Option.some.inj hfind
  have hmake : (Catalogue.Item.builder "door").make door =
      .ok ⟨Examples.Door.built, i⟩ := by
    simp only [Catalogue.Item.make, hfind, Catalogue.build, Examples.Door.define_machine, hbuild]
    rfl
  have hempty : ("statefold.examples.door".isEmpty || "build_interpreter".isEmpty) ≠ true := by
    decide +kernel
  have hdot : "statefold.examples.door".toList.head? ≠ some '.' := by decide +kernel
  refine ⟨⟨Examples.Door.built, i⟩, ?_, hi⟩
  simp only [Catalogue.load, hname, hpath, if_neg hempty, if_neg hdot, hmodule, ok_bind, hitem,
    hmake]

/-- A setting in which every file holds one event. -/
def settingOf (event : Value) : Setting where
  files _ := .ok (Value.utf8 (event.toJson.write Json.spacedAscii))
  chunk := 8192
  stamp := ""
  console := .ofWidth 1000
  copies := .same
  composed := Error.kind

/-- A run of the door fails at an event without a type. -/
theorem door_fails {event : Value}
    (hread : EventFile.read Value.loads setting.chunk "events" (setting.files "events") =
      .ok [event])
    (hinit : Event.isInit event = false)
    (htype : Event.typeOf event = .error (.invalidEvent event)) :
    Fails setting door "events" false none (.invalidEvent event) [] := by
  obtain ⟨l, hload, hl⟩ := load_door
  obtain ⟨actions, changed, hcontrol⟩ := hl.control
  have hactive : Examples.Door.built.activeNodes l.interpreter.snapshot.control =
      .ok Examples.Door.Place.idle.active := by
    rw [hcontrol]
    with_unfolding_all rfl
  have hanswer : ∀ start, Examples.Door.built.transition Examples.host start
      l.interpreter.snapshot.control event l.interpreter.snapshot.state =
        .error (.invalidEvent event) := by
    intro start
    simp [Machine.transition, hinit, hactive, htype, Bind.bind, Except.bind]
  have hsend := hl.interprets.send_eq_of_error (hanswer _)
  exact .event hload hread (Replay.send_all_cons_error hsend) rfl

/-- An event that is a table with one text under a key. -/
def entry (key text : String) : Value :=
  .table [(key, .text text)]

theorem door_fails_entry {key text : String} (hkey : key ≠ "type") :
    Fails (settingOf (entry key text)) door "events" false none (.invalidEvent (entry key text))
      [] := by
  have hjson : (entry key text).IsJson :=
    @Value.IsJson.dict none [(key, .text text)] (List.nodup_singleton key)
      (List.forall_mem_singleton.mpr (.text text))
  have hreadable : (entry key text).toJson.Readable 0 :=
    .obj (by decide) (List.forall_mem_singleton.mpr (.str text))
  have hmarks : (entry key text).remark (fun _ => none) = entry key text := by
    simp [entry, Value.remark_eq, Value.table, Value.newTable, Value.contents, Value.rebuild,
      Value.pairs]
  have hdumped : EventFile.Dumped Value.loads (fun v => v.toJson.write Json.spacedAscii)
      (entry key text) :=
    EventFile.dumped_of_readable Json.spaced_ascii_one_line hjson hreadable hmarks
  have hread := EventFile.read_written 8192 "events" hdumped
  refine door_fails hread rfl ?_
  have hnone : Table.getText? [(Value.text key, Value.text text)] "type" = none := by
    rw [Value.get_text_cons, if_neg (by simpa [Value.text?] using hkey)]
    rfl
  simp [Event.typeOf, entry, Value.table, Value.newTable, Event.rawType?, Value.entries?, hnone]

end Command

end Statechart
