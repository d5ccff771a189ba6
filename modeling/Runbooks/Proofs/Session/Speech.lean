import Runbooks.Proofs.Document.Json
import Runbooks.Session.Program

namespace Runbooks

section Views

/-- What an event prints on standard output. -/
def Event.print? : Event → Option String
  | out text => some text
  | launched _ _ printed => some printed
  | _ => none

/-- What an event says to the operator. -/
def Event.message? : Event → Option String
  | err text => some text
  | _ => none

/-- An engine that an event tells of: its program and its arguments. -/
def Event.launch? : Event → Option (String × List String)
  | launched program arguments _ => some (program, arguments)
  | _ => none

/-- What is printed on standard output, in order. -/
def prints (events : List Event) : List String :=
  events.filterMap Event.print?

/-- What is said to the operator, in order. -/
def messages (events : List Event) : List String :=
  events.filterMap Event.message?

/-- The engines that are started, in order. -/
def launches (events : List Event) : List (String × List String) :=
  events.filterMap Event.launch?

variable (events events' : List Event)

@[simp] theorem prints_nil : prints [] = [] :=
  rfl

@[simp] theorem prints_append : prints (events ++ events') = prints events ++ prints events' :=
  List.filterMap_append

@[simp] theorem messages_append :
    messages (events ++ events') = messages events ++ messages events' :=
  List.filterMap_append

@[simp] theorem launches_append :
    launches (events ++ events') = launches events ++ launches events' :=
  List.filterMap_append

theorem join_stdout : String.join (events.map Event.stdout) = String.join (prints events) := by
  induction events with
  | nil => rfl
  | cons e events ih =>
    rw [List.map_cons, String.join_cons, ih]
    cases e with
    | out text => exact String.join_cons.symm
    | err text => exact String.empty_append
    | log text => exact String.empty_append
    | launched program arguments printed => exact String.join_cons.symm

end Views

section Logging

variable {α : Type} {view : Event → Option α}

/-- A line of the log shows in no view but that of the log. -/
theorem filterMap_say (h : ∀ text, view (.log text) = none) (x : Context) (l : Log.Line) :
    (x.say l).filterMap view = [] := by
  unfold Context.say
  split
  · rw [List.filterMap_cons_none (h _), List.filterMap_nil]
  · rfl

theorem filterMap_sayAll (h : ∀ text, view (.log text) = none) (x : Context)
    (ls : List Log.Line) : (x.sayAll ls).filterMap view = [] := by
  induction ls with
  | nil => rfl
  | cons l ls ih =>
    rw [Context.sayAll, List.flatMap_cons, List.filterMap_append, filterMap_say h,
      ← Context.sayAll, ih, List.append_nil]

variable (x : Context) (l : Log.Line) (ls : List Log.Line)

@[simp] theorem prints_say : prints (x.say l) = [] :=
  filterMap_say (fun _ => rfl) x l

@[simp] theorem prints_sayAll : prints (x.sayAll ls) = [] :=
  filterMap_sayAll (fun _ => rfl) x ls

@[simp] theorem messages_say : messages (x.say l) = [] :=
  filterMap_say (fun _ => rfl) x l

@[simp] theorem messages_sayAll : messages (x.sayAll ls) = [] :=
  filterMap_sayAll (fun _ => rfl) x ls

@[simp] theorem launches_say : launches (x.say l) = [] :=
  filterMap_say (fun _ => rfl) x l

@[simp] theorem launches_sayAll : launches (x.sayAll ls) = [] :=
  filterMap_sayAll (fun _ => rfl) x ls

end Logging

section Voices

variable (v : Voice)

@[simp] theorem launches_result (j : Json) : launches (v.result j) = [] := by
  unfold Voice.result
  split <;> rfl

@[simp] theorem launches_generated (delivery : Delivery) (debug : Bool) :
    launches (v.generated delivery debug) = [] := by
  unfold Voice.generated
  split
  · exact launches_result v _
  · rfl

@[simp] theorem launches_completed (program elapsed : String) :
    launches (v.completed program elapsed) = [] := by
  unfold Voice.completed
  split
  · exact launches_result v _
  · rfl

theorem filterMap_diagnostic {α : Type} {view : Event → Option α}
    (h : ∀ text, view (.err text) = none) (type code label message : String) :
    (v.diagnostic type code label message).filterMap view = [] := by
  unfold Voice.diagnostic
  split <;> rw [List.filterMap_cons_none (h _), List.filterMap_nil]

@[simp] theorem launches_error (message : String) : launches (v.error message) = [] :=
  filterMap_diagnostic v (fun _ => rfl) _ _ _ _

@[simp] theorem prints_error (message : String) : prints (v.error message) = [] :=
  filterMap_diagnostic v (fun _ => rfl) _ _ _ _

@[simp] theorem prints_warning (message : String) : prints (v.warning message) = [] :=
  filterMap_diagnostic v (fun _ => rfl) _ _ _ _

theorem prints_finish (x : Context) (c : Course) :
    prints (Session.finish x c).events = prints c.events := by
  unfold Session.finish
  cases c.failure with
  | none => rfl
  | some f => simp only [prints_append, prints_say, prints_error, List.append_nil]

end Voices

section Programs

/-- The text `line` is one line that holds the object with these members. -/
structure HoldsObject (line : String) (members : List (String × Json)) : Prop where
  ending : line = (Json.object members).text ++ "\n"
  unbroken : '\n' ∉ (Json.object members).text.toList
  reads : Json.readTree? (Json.object members).text = some (Json.object members).tree

theorem holdsObject_jsonLine (members : List (String × Json)) :
    HoldsObject (Voice.jsonLine (.object members)) members where
  ending := rfl
  unbroken := by
    rw [Json.text, String.toList_ofList]
    exact Json.lineFeed_not_mem_render _
  reads := Json.readTree?_text _

variable {v : Voice} (h : v.json = true)

include h

theorem Voice.human_of_json (events : List Event) : v.human events = [] :=
  if_pos h

theorem Voice.info_of_json (message : String) : v.info message = [] := by
  unfold Voice.info
  split
  · rfl
  · exact Voice.human_of_json h _

theorem Voice.result_of_json (j : Json) : v.result j = [.out (jsonLine j)] :=
  if_pos h

theorem Voice.generated_of_json (delivery : Delivery) (debug : Bool) :
    v.generated delivery debug = [.out (jsonLine (generatedJson delivery debug))] := by
  rw [Voice.generated, if_pos h, Voice.result_of_json h]

theorem Voice.error_of_json (message : String) :
    v.error message =
      [.err (jsonLine (.object [("message", .string message), ("type", .string "error")]))] :=
  if_pos h

end Programs

end Runbooks
