import Mathlib.Data.List.DropRight
import Micro80.Log.Session

/-!
# Routing of messages to files

A program puts logs to use and ends them, opens and closes files, sets thresholds and logs messages,
in any order. Which file is open, and with which threshold, follows from these actions alone: a file
is the open one from where it is opened up to the next opening, closing or end of the log. So the
actions come to a sequence of events, each about at most one file, and what is in a file can be told
from the events about it. Nothing has to be known of the other files for this, and nothing of the
console.

The log reports by itself when it has opened a file and before it closes one. That a file cannot be
opened is reported while no file is open, and so it is in none.

All that is assumed of the file system is that a name which can be written to is always opened, and
always leads to the same file. Which names these are does not matter.

## Main definitions

* `LogAction`, with `Session.perform` and `Session.performAll`: what a program does with logs.
* `FileSystem.Opens`: the assumption about the file system.
* `Route`: which file is open, and with which threshold, according to the actions.
* `Session.Leads`: by which events a session comes to another one.
* `FileEvent`: opening a file and logging a message, with `Route.history` for the events that
  actions come to.
* `FileEvent.contentAfter`: what is in a file after some events.

## Main statements

* `Session.leads_performAll`: actions lead to the files and the route that follow from them.
* `Directory.content?_foldl_happen`: each file has what the events about it say.
* `Session.messages_reach_their_file`: both together.
-/

namespace Micro80

/-! ### Actions -/

/-- **Log actions.** What a program does with logs. -/
inductive LogAction where
  /-- Puts a new log to use. -/
  | create (program : Text) (attached : Bool)
  /-- Ends the log. -/
  | finish
  | openFile (name : Text) (threshold : Severity) (adding : Bool)
  | closeFile
  | setConsoleThreshold (t : Severity)
  | setFileThreshold (t : Severity)
  /-- Logs a message. -/
  | send (m : Message)

namespace Session

/-- The session after an action. -/
def perform (fs : FileSystem) (clock : Clock) (s : Session) : LogAction → Session
  | .create program attached => s.create program attached
  | .finish => (s.finish clock).2
  | .openFile name threshold adding => (s.openFile fs clock name threshold adding).2
  | .closeFile => s.closeFile clock
  | .setConsoleThreshold t => s.setConsoleThreshold t
  | .setFileThreshold t => s.setFileThreshold t
  | .send m => s.send clock m

/-- The session after some actions, each with a reading of the clock, the oldest first. -/
def performAll (fs : FileSystem) (s : Session) (l : List (Clock × LogAction)) : Session :=
  l.foldl (fun s x => s.perform fs x.1 x.2) s

end Session

/-! ### Events -/

/-- **File events.** What happens to files. -/
inductive FileEvent where
  /-- A file is opened, and what is in it stays or does not. -/
  | opened (file : Text) (adding : Bool)
  /-- A message is logged while the given file is open, if any is, with the given threshold. -/
  | logged (stamp : TimeStamp) (file : Option Text) (threshold : Severity) (m : Message)

namespace FileEvent

/-- Whether a file is opened by an event in such a way that nothing stays in it. -/
def empties (file : Text) : FileEvent → Bool
  | opened f adding => f == file && !adding
  | logged .. => false

/-- Whether a message reaches a file: the file is open, and the message passes its threshold. -/
def reaches (file : Text) : FileEvent → Bool
  | opened .. => false
  | logged _ f threshold m => f == some file && m.severity.passes threshold

/-- What an event adds to a file: the lines of a message that reaches it, each with the time and the
severity in front. -/
def entry (file : Text) (e : FileEvent) : Text :=
  match e with
  | opened .. => []
  | logged stamp _ _ m =>
    if e.reaches file then
      m.text.lines.flatMap fun line =>
        stamp.text ++ Text.ascii " " ++ m.severity.name ++ Text.ascii "\t" ++ line ++ [Text.newline]
    else []

/-- Whether an event is about a file, so that the file exists afterwards. -/
def touches (file : Text) (e : FileEvent) : Bool :=
  match e with
  | opened f _ => f == file
  | logged .. => e.reaches file

/-- **What is in a file after some events**: what has been in it at first, or nothing if it has been
emptied, and then what has been added since it was emptied for the last time. -/
def textAfter (file : Text) (events : List FileEvent) (initial : Option Text) : Text :=
  (if events.any (empties file) then [] else initial.getD []) ++
    (events.rtakeWhile fun e => !e.empties file).flatMap (entry file)

/-- **The content of a file after some events,** if the file exists: it has existed at first, or
some event has been about it. -/
def contentAfter (file : Text) (events : List FileEvent) (initial : Option Text) : Option Text :=
  if initial.isSome || events.any (touches file) then some (textAfter file events initial) else none

/-- No message reaches two files. -/
theorem eq_of_reaches {e : FileEvent} {file other : Text} (h : e.reaches file = true)
    (h' : e.reaches other = true) : file = other := by
  cases e with
  | opened => cases h
  | logged stamp f threshold m =>
    simp only [reaches, Bool.and_eq_true, beq_iff_eq] at h h'
    exact Option.some.inj (h.1.symm.trans h'.1)

section

variable {file : Text} {e : FileEvent}

/-- What a message that reaches a file adds to it is what a log writes for the message. -/
theorem entry_of_reaches {stamp : TimeStamp} {f : Option Text} {threshold : Severity} {m : Message}
    (h : (logged stamp f threshold m).reaches file = true) :
    (logged stamp f threshold m).entry file = m.entry stamp :=
  if_pos h

theorem touches_of_empties (h : e.empties file = true) : e.touches file = true := by
  cases e with
  | opened f adding => exact (Bool.and_eq_true_iff.1 h).1
  | logged => cases h

/-- A file is not written to as it is opened. -/
theorem entry_of_empties (h : e.empties file = true) : e.entry file = [] := by
  cases e with
  | opened => rfl
  | logged => cases h

theorem entry_of_not_touches (h : e.touches file = false) : e.entry file = [] := by
  cases e with
  | opened => rfl
  | logged stamp f threshold m => exact if_neg (Bool.eq_false_iff.1 h)

theorem empties_of_not_touches (h : e.touches file = false) : e.empties file = false := by
  rw [← Bool.not_eq_true] at h ⊢
  exact fun empties => h (touches_of_empties empties)

variable {events : List FileEvent} {initial : Option Text}

/-- Events that are not about a file do not add to it. -/
theorem textAfter_of_not_touches (h : events.any (touches file) = false) :
    textAfter file events initial = initial.getD [] := by
  have still : ∀ e ∈ events, e.touches file = false := by simpa using h
  have kept : events.any (empties file) = false := by
    simpa using fun e he => empties_of_not_touches (still e he)
  have nothing : (events.rtakeWhile fun e => !e.empties file).flatMap (entry file) = [] :=
    List.flatMap_eq_nil_iff.2 fun e he =>
      entry_of_not_touches (still e ((List.rtakeWhile_suffix _ _).subset he))
  rw [textAfter, kept, nothing, List.append_nil]
  rfl

/-- A file that does not exist has nothing in it. -/
theorem getD_contentAfter :
    (contentAfter file events initial).getD [] = textAfter file events initial := by
  unfold contentAfter
  split
  · rfl
  · rename_i missing
    simp only [Bool.or_eq_true, not_or, Bool.not_eq_true, Option.isSome_eq_false_iff,
      Option.isNone_iff_eq_none] at missing
    rw [textAfter_of_not_touches missing.2, missing.1]

theorem textAfter_concat :
    textAfter file (events ++ [e]) initial =
      (if e.empties file then [] else textAfter file events initial) ++ e.entry file := by
  unfold textAfter
  rw [List.any_append, List.rtakeWhile_concat]
  cases empties : e.empties file with
  | true => simp [empties, entry_of_empties empties]
  | false => simp [empties]

/-- **One event more.** -/
theorem contentAfter_concat :
    contentAfter file (events ++ [e]) initial =
      if e.touches file then
        some ((if e.empties file then [] else (contentAfter file events initial).getD []) ++
          e.entry file)
      else contentAfter file events initial := by
  rw [getD_contentAfter, ← textAfter_concat]
  unfold contentAfter
  rw [List.any_append, textAfter_concat]
  cases touches : e.touches file with
  | true => simp [touches]
  | false => simp [touches, empties_of_not_touches touches, entry_of_not_touches touches]

end

end FileEvent

namespace Directory

/-- The directory after an event. -/
def happen (d : Directory) : FileEvent → Directory
  | .opened file adding => d.put file (if adding then (d.content? file).getD [] else [])
  | .logged _ none _ _ => d
  | .logged stamp (some file) threshold m =>
    if m.severity.passes threshold then d.append file (m.entry stamp) else d

/-- **One event** changes the file that it is about, if it is about one, and no other file. -/
theorem content?_happen (d : Directory) (e : FileEvent) (file : Text) :
    (d.happen e).content? file =
      if e.touches file then
        some ((if e.empties file then [] else (d.content? file).getD []) ++ e.entry file)
      else d.content? file := by
  cases e with
  | opened f adding =>
    by_cases same : file = f
    · subst same
      cases adding <;> simp [happen, FileEvent.touches, FileEvent.empties, FileEvent.entry]
    · have differs : (f == file) = false := beq_false_of_ne (Ne.symm same)
      rw [happen, d.content?_put_of_ne _ same, FileEvent.touches, differs,
        if_neg Bool.false_ne_true]
  | logged stamp f threshold m =>
    cases f with
    | none => rfl
    | some f =>
      by_cases passes : m.severity.passes threshold = true
      · by_cases same : file = f
        · subst same
          have reaches : (FileEvent.logged stamp (some file) threshold m).reaches file = true := by
            simp [FileEvent.reaches, passes]
          rw [happen, if_pos passes, content?_append_self, FileEvent.touches, if_pos reaches,
            FileEvent.entry_of_reaches reaches]
          rfl
        · have differs : (some f == some file) = false :=
            beq_false_of_ne fun h => same (Option.some.inj h).symm
          simp [happen, passes, d.content?_append_of_ne _ same, FileEvent.touches,
            FileEvent.reaches, differs]
      · simp [happen, passes, FileEvent.touches, FileEvent.reaches]

/-- **Several events.** Each file has what the events about it say, and the other events do not
matter to it. -/
theorem content?_foldl_happen (d : Directory) (events : List FileEvent) (file : Text) :
    (events.foldl happen d).content? file =
      FileEvent.contentAfter file events (d.content? file) := by
  -- The last event is looked at first, since it is the one after which nothing may be left.
  induction events using List.reverseRecOn with
  | nil =>
    rw [List.foldl_nil, FileEvent.contentAfter, FileEvent.textAfter_of_not_touches List.any_nil]
    cases d.content? file <;> rfl
  | append_singleton events e ih =>
    rw [List.foldl_append, List.foldl_cons, List.foldl_nil, content?_happen, ih]
    exact FileEvent.contentAfter_concat.symm

end Directory

/-! ### Routes -/

/-- **Routes.** Where the messages of a log go. -/
structure Route where
  /-- The name of the program. -/
  program : Text
  /-- The open file. -/
  current : Option OpenFile
  /-- The threshold of the open file. -/
  threshold : Severity

namespace Route

/-- The name by which a file is opened: the given one, or the usual one if none is given. -/
def nameFor (r : Route) (today : Date) (name : Text) : Text :=
  if name.isEmpty then Text.clip (r.program ++ .ascii "_" ++ today.text ++ .ascii ".log") else name

/-- The route when the open file, if there is one, has been closed. -/
def closed (r : Route) : Route :=
  if r.current.isSome then { r with current := none, threshold := .silent } else r

/-- A message to the open file. -/
def logged (r : Route) (clock : Clock) (m : Message) : FileEvent :=
  .logged clock.now (r.current.map OpenFile.file) r.threshold m

/-- What happens when the open file, if there is one, is closed: this is said in the file. -/
def closing (r : Route) (clock : Clock) : List FileEvent :=
  match r.current with
  | none => []
  | some f => [r.logged clock ⟨.debug, (.ascii "closing log " ++ f.name : Text).untilNul⟩]

/-- The route with another file open. -/
def opening (r : Route) (name file : Text) (threshold : Severity) : Route :=
  { r with current := some ⟨name, file⟩, threshold := threshold }

/-- **The route after an action,** if a log is in use. Names that are writable lead to a file. -/
def after (writable : Text → Option Text) (clock : Clock) :
    Option Route → LogAction → Option Route
  | _, .create program _ => some ⟨program, none, .silent⟩
  | none, _ => none
  | some _, .finish => none
  | some r, .closeFile => some r.closed
  | some r, .openFile name threshold _ =>
    let name := r.nameFor clock.today name
    some ((writable name).elim r.closed fun file => r.opening name file threshold)
  | some r, .setFileThreshold t => some { r with threshold := t }
  | some r, .setConsoleThreshold _ | some r, .send _ => some r

/-- **What happens by an action.** A file that is opened takes the place of the one that is open,
and what is said about it is its first message. -/
def events (writable : Text → Option Text) (clock : Clock) :
    Option Route → LogAction → List FileEvent
  | some r, .finish | some r, .closeFile => r.closing clock
  | some r, .openFile name threshold adding =>
    let name := r.nameFor clock.today name
    r.closing clock ++ (writable name).elim [] fun file =>
      [ .opened file adding,
        (r.opening name file threshold).logged clock
          ⟨.debug, (.ascii "logging to " ++ name : Text).untilNul⟩ ]
  | some r, .send m => [r.logged clock m]
  | some _, .create .. | some _, .setFileThreshold _ | some _, .setConsoleThreshold _ => []
  | none, _ => []

/-- The route after some actions. -/
def afterAll (writable : Text → Option Text) (r : Option Route) (l : List (Clock × LogAction)) :
    Option Route :=
  l.foldl (fun r x => after writable x.1 r x.2) r

/-- **What happens by some actions.** -/
def history (writable : Text → Option Text) (r : Option Route) :
    List (Clock × LogAction) → List FileEvent
  | [] => []
  | (clock, x) :: rest =>
    events writable clock r x ++ history writable (after writable clock r x) rest

variable (r : Route)

/-- No file is open when the open one has been closed. -/
@[simp] theorem current_closed : r.closed.current = none := by
  unfold closed
  split
  · rfl
  · simpa using ‹¬r.current.isSome = true›

theorem nameFor_closed (today : Date) (name : Text) :
    r.closed.nameFor today name = r.nameFor today name := by
  unfold closed
  split <;> rfl

/-- Nothing about the file that has been open, and nothing about its threshold, stays when another
one is opened. -/
theorem opening_closed (name file : Text) (threshold : Severity) :
    r.closed.opening name file threshold = r.opening name file threshold := by
  unfold closed
  split <;> rfl

end Route

/-! ### File systems -/

/-- **The assumption about a file system.** A name that is writable leads to a file, and it is
opened at any time. No other name ever is. -/
structure FileSystem.Opens (fs : FileSystem) (writable : Text → Option Text) : Prop where
  opened : ∀ d name file, writable name = some file → fs.find d name = .ok file
  refused : ∀ d name, writable name = none → ∃ reason, fs.find d name = .error reason

/-- A file system in which all names that are not writable lead through missing directories. -/
def FileSystem.among (writable : Text → Option Text) : FileSystem where
  find _ name := (writable name).elim (.error (.ascii "No such file or directory")) .ok

theorem FileSystem.opens_among (writable : Text → Option Text) :
    (among writable).Opens writable where
  opened _ _ _ h := congrArg (Option.elim · _ Except.ok) h
  refused _ _ h := ⟨_, congrArg (Option.elim · _ Except.ok) h⟩

namespace Directory

variable {fs : FileSystem} {writable : Text → Option Text} {name : Text}

/-- A writable name is opened for writing, which happens to the file to which it leads. -/
theorem prepare_of_writable (opens : fs.Opens writable) {file : Text}
    (h : writable name = some file) (d : Directory) (adding : Bool) :
    d.prepare fs name adding = .ok (file, d.happen (.opened file adding)) := by
  rw [prepare, opens.opened d name file h]
  rfl

theorem exists_prepare_of_not_writable (opens : fs.Opens writable) (h : writable name = none)
    (d : Directory) (adding : Bool) : ∃ reason, d.prepare fs name adding = .error reason := by
  obtain ⟨reason, refused⟩ := opens.refused d name h
  refine ⟨reason, ?_⟩
  rw [prepare, refused]

end Directory

/-! ### Sessions on their routes -/

/-- The route of a log. -/
def Log.route (l : Log) : Route := ⟨l.console.program, l.current, l.fileThreshold⟩

/-- A log with another file open. -/
def Log.opening (l : Log) (name file : Text) (threshold : Severity) : Log :=
  { l with current := some ⟨name, file⟩, fileThreshold := threshold }

/-- What a log writes for a message is what its route says. -/
theorem Log.record_eq (clock : Clock) (l : Log) (m : Message) (d : Directory) :
    l.record clock m d = d.happen (l.route.logged clock m) := by
  obtain ⟨console, _ | f, threshold⟩ := l <;> rfl

namespace Session

/-- The route of the log in use. -/
def route (s : Session) : Option Route := s.log.map Log.route

/-- A session comes to another one by some events, and the route at the end is the given one. -/
structure Leads (s : Session) (events : List FileEvent) (r : Option Route) (s' : Session) :
    Prop where
  route_eq : s'.route = r
  directory_eq : s'.directory = events.foldl .happen s.directory

variable {s s' s'' : Session} {clock : Clock} {l : Log} {r r' : Option Route}
  {events events' : List FileEvent} {fs : FileSystem} {writable : Text → Option Text}

theorem Leads.refl (s : Session) : Leads s [] s.route s := ⟨rfl, rfl⟩

theorem Leads.trans (first : Leads s events r s') (second : Leads s' events' r' s'') :
    Leads s (events ++ events') r' s'' where
  route_eq := second.route_eq
  directory_eq := by rw [second.directory_eq, first.directory_eq, List.foldl_append]

/-- Nothing happens to the files when the log is altered. -/
theorem Leads.altered (h : Leads s events r s') {f : Log → Log} {g : Route → Route}
    (same : ∀ l, (f l).route = g l.route) : Leads s events (r.map g) (s'.alter f) where
  route_eq := by
    rw [← h.route_eq, route, route, alter, Option.map_map, Option.map_map]
    exact congrArg (s'.log.map ·) (funext same)
  directory_eq := h.directory_eq

theorem leads_send (m : Message) (h : s.log = some l) :
    Leads s [l.route.logged clock m] (some l.route) (s.send clock m) := by
  unfold send
  rw [h]
  exact ⟨by simp [route, Log.route], l.record_eq clock m s.directory⟩

/-- What is said while no file is open is in no file. -/
theorem leads_send_of_closed (m : Message) (h : s.log = some l) (closed : l.current = none) :
    Leads s [] (some l.route) (s.send clock m) where
  route_eq := (leads_send m h).route_eq
  directory_eq := by
    rw [(leads_send m h).directory_eq, Route.logged, Log.route, closed]
    rfl

theorem leads_closeFile (h : s.log = some l) :
    Leads s (l.route.closing clock) (some l.route.closed) (s.closeFile clock) := by
  obtain ⟨console, _ | f, threshold⟩ := l
  · have still : s.closeFile clock = s := by
      rw [closeFile, h]
      rfl
    have same : s.route = some (Log.route ⟨console, none, threshold⟩) := by
      rw [route, h]
      rfl
    rw [still]
    exact same ▸ .refl s
  · have closing : s.closeFile clock =
        (s.send clock (.streamed .debug (.ascii "closing log " ++ f.name))).alter fun l =>
          { l with current := none, fileThreshold := .silent } := by
      rw [closeFile, h]
      rfl
    rw [closing]
    exact (leads_send _ h).altered
      (g := fun r => { r with current := none, threshold := .silent }) fun _ => rfl

/-- The name by which a log opens a file does not depend on whether another one is open. -/
theorem usualName_eq {l l' : Log} (same : l'.route = l.route.closed) (today : Date) (name : Text) :
    (if name.isEmpty then l'.usualName today else name) = l.route.nameFor today name := by
  rw [← l.route.nameFor_closed, ← same]
  rfl

theorem leads_openFile (opens : fs.Opens writable) (name : Text) (threshold : Severity)
    (adding : Bool) (h : s.log = some l) :
    Leads s (Route.events writable clock (some l.route) (.openFile name threshold adding))
      (Route.after writable clock (some l.route) (.openFile name threshold adding))
      (s.openFile fs clock name threshold adding).2 := by
  have closing : Leads s (l.route.closing clock) (some l.route.closed) (s.closeFile clock) :=
    leads_closeFile h
  obtain ⟨l', log_eq, route_eq⟩ := Option.map_eq_some_iff.1 closing.route_eq
  rw [openFile, log_eq]
  simp only [usualName_eq route_eq, Route.events, Route.after]
  generalize l.route.nameFor clock.today name = name
  refine closing.trans ?_
  cases found : writable name with
  | none =>
    -- The failure is reported after the open file has been closed.
    obtain ⟨reason, refused⟩ :=
      Directory.exists_prepare_of_not_writable opens found (s.closeFile clock).directory adding
    have closed : l'.current = none := l.route.current_closed ▸ congrArg Route.current route_eq
    rw [refused, Option.elim_none, Option.elim_none, ← route_eq]
    exact leads_send_of_closed _ log_eq closed
  | some file =>
    have reopened :
        (l'.opening name file threshold).route = l.route.opening name file threshold := by
      rw [← l.route.opening_closed, ← route_eq]
      rfl
    rw [Directory.prepare_of_writable opens found, Option.elim_some, Option.elim_some, ← reopened]
    let after : Session :=
      ⟨(s.closeFile clock).directory.happen (.opened file adding),
        some (l'.opening name file threshold)⟩
    have first : Leads (s.closeFile clock) [.opened file adding] after.route after := ⟨rfl, rfl⟩
    exact first.trans (leads_send _ rfl)

/-- **One action** leads to what its route says. -/
theorem leads_perform (opens : fs.Opens writable) (s : Session) (clock : Clock) (x : LogAction) :
    Leads s (Route.events writable clock s.route x) (Route.after writable clock s.route x)
      (s.perform fs clock x) := by
  obtain ⟨d, _ | l⟩ := s
  · cases x <;> exact ⟨rfl, rfl⟩
  · cases x with
    | create => exact ⟨rfl, rfl⟩
    | finish => exact ⟨rfl, (leads_closeFile rfl).directory_eq⟩
    | openFile name threshold adding => exact leads_openFile opens name threshold adding rfl
    | closeFile => exact leads_closeFile rfl
    | setConsoleThreshold => exact ⟨rfl, rfl⟩
    | setFileThreshold => exact ⟨rfl, rfl⟩
    | send m => exact leads_send m rfl

/-- **Several actions.** -/
theorem leads_performAll (opens : fs.Opens writable) (s : Session)
    (l : List (Clock × LogAction)) :
    Leads s (Route.history writable s.route l) (Route.afterAll writable s.route l)
      (s.performAll fs l) := by
  induction l generalizing s with
  | nil => exact .refl s
  | cons x rest ih =>
    have first := leads_perform opens s x.1 x.2
    have others := ih (s.perform fs x.1 x.2)
    rw [first.route_eq] at others
    exact first.trans others

/-- **Messages reach their file.** Let a file system open the names that are writable. Whatever a
program does with logs, a file has in it what it has had at first, or nothing if it has been opened
without adding to it, and after the last time this was done the lines of the messages that reached
it, in their order. Those are the messages that were logged while the file was the open one and that
passed the threshold it had then, and no message reaches two files. Which file is open, and with
which threshold, follows from the actions alone. -/
theorem messages_reach_their_file (opens : fs.Opens writable) (d : Directory)
    (l : List (Clock × LogAction)) (file : Text) :
    (performAll fs ⟨d, none⟩ l).route = Route.afterAll writable none l ∧
      (performAll fs ⟨d, none⟩ l).directory.content? file =
        FileEvent.contentAfter file (Route.history writable none l) (d.content? file) ∧
      ∀ e ∈ Route.history writable none l, e.reaches file = true →
        ∀ other, other ≠ file → e.reaches other = false := by
  have all := leads_performAll opens ⟨d, none⟩ l
  refine ⟨all.route_eq, ?_, ?_⟩
  · rw [all.directory_eq]
    exact d.content?_foldl_happen _ file
  · intro e _ reaches other differs
    exact Bool.eq_false_iff.2 fun both => differs (FileEvent.eq_of_reaches both reaches)

/-- A file that is emptied as it is opened, closed and opened again, the second time with a higher
threshold, and closed for good by the attempt to open one that does not exist. -/
theorem messages_reach_their_file_again :
    let file : Text := .ascii "/tmp/z85_logfile_test.log"
    let writable (name : Text) : Option Text := if name = file then some file else none
    let fs := FileSystem.among writable
    let clock : Clock := ⟨⟨45296, 789000⟩, ⟨2026, 10, 19⟩⟩
    let d := Directory.empty.put file (.ascii "old")
    let actions : List LogAction :=
      [ .create (.ascii "Z85") false, .openFile file .debug false,
        .send (.formatted .debug (.ascii "x=42")), .send (.streamed .warning (.ascii "one\ntwo")),
        .send (.formatted .trace (.ascii "too verbose")), .closeFile,
        .send (.formatted .error (.ascii "between")), .openFile file .warning true,
        .send (.streamed .error (.ascii "again")), .openFile (.ascii "/no/z85.log") .trace true,
        .send (.formatted .error (.ascii "nowhere")) ]
    fs.Opens writable ∧
      (performAll fs ⟨d, none⟩ (actions.map fun x => (clock, x))).directory.content? file =
        some (.ascii ("12:34:56.789 DEBUG\tlogging to /tmp/z85_logfile_test.log\n"
          ++ "12:34:56.789 DEBUG\tx=42\n12:34:56.789 WARN\tone\n12:34:56.789 WARN\ttwo\n"
          ++ "12:34:56.789 DEBUG\tclosing log /tmp/z85_logfile_test.log\n"
          ++ "12:34:56.789 ERROR\tagain\n")) := by
  intro file writable fs clock d actions
  have opens : fs.Opens writable := FileSystem.opens_among writable
  obtain ⟨-, content, -⟩ :=
    messages_reach_their_file opens d (actions.map fun x => (clock, x)) file
  exact ⟨opens, content.trans (by decide +kernel)⟩

end Session

end Micro80
