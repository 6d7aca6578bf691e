import Micro80.Log.Clock
import Micro80.Log.Console
import Micro80.Log.Directory

/-!
# Log sessions

A log sends each message to its open file and to its console, each with a threshold of its own.
In a file every line of a message stands on its own, with the time and the severity in front; the
console receives a message as one piece. A log opens one file at a time and reports that it does.

A session is a directory and the log that is in use, if there is one. Files stay when a log ends.

## Main definitions

* `Log`: a console, the open file and its threshold.
* `Session`, with `Session.create`, `Session.send`, `Session.openFile`, `Session.closeFile` and
  `Session.finish`.
-/

namespace Micro80

/-- **Open files.** -/
structure OpenFile where
  /-- The name by which the file was opened. -/
  name : Text
  /-- The file to which that name leads. -/
  file : Text
  deriving DecidableEq

/-- **Logs.** -/
structure Log where
  /-- The console. -/
  console : Console
  /-- The open file. -/
  current : Option OpenFile
  /-- The threshold of the file. -/
  fileThreshold : Severity

namespace Log

/-- A log without an open file. -/
def start (program : Text) (attached : Bool) : Log where
  console := .start program attached .warning
  current := none
  fileThreshold := .silent

/-- Whether messages of a severity go to the open file. -/
def files (l : Log) (s : Severity) : Bool := l.current.isSome && s.passes l.fileThreshold

/-- Whether messages of a severity go anywhere. -/
def admits (l : Log) (s : Severity) : Bool := l.console.admits s || l.files s

/-- The name of the open file, empty where there is none. -/
def fileName (l : Log) : Text := l.current.elim [] OpenFile.name

/-- The name that a file has if no other is given: the program and the date. -/
def usualName (l : Log) (today : Date) : Text :=
  Text.clip (l.console.program ++ .ascii "_" ++ today.text ++ .ascii ".log")

end Log

/-- One line of a message in a file. -/
def Message.line (stamp : TimeStamp) (severity : Severity) (line : Text) : Text :=
  stamp.text ++ .ascii " " ++ severity.name ++ .ascii "\t" ++ line ++ [Text.newline]

/-- **Messages in files.** Every line of a message has the time and the severity in front. -/
def Message.entry (stamp : TimeStamp) (m : Message) : Text :=
  m.text.lines.flatMap (Message.line stamp m.severity)

/-- The directory after a log has written a message to its file, if it has one and the threshold
lets the message through. -/
def Log.record (clock : Clock) (l : Log) (m : Message) (d : Directory) : Directory :=
  match l.current with
  | none => d
  | some f => if m.severity.passes l.fileThreshold then d.append f.file (m.entry clock.now) else d

/-- **Sessions.** -/
structure Session where
  /-- The files. -/
  directory : Directory
  /-- The log in use. -/
  log : Option Log

namespace Session

/-- A session without files and without a log. -/
def empty : Session := ⟨.empty, none⟩

/-- The session after a log has been put to use. -/
def create (s : Session) (program : Text) (attached : Bool) : Session :=
  { s with log := some (.start program attached) }

/-- Whether messages of a severity go anywhere. -/
def admits (s : Session) (severity : Severity) : Bool :=
  s.log.any fun l => l.admits severity

/-- **Sending a message** to the file and to the console. Without a log nothing happens. -/
def send (clock : Clock) (s : Session) (m : Message) : Session :=
  match s.log with
  | none => s
  | some l =>
    { directory := l.record clock m s.directory
      log := some { l with console := l.console.receive m } }

/-- The session with its log altered. -/
def alter (s : Session) (f : Log → Log) : Session := { s with log := s.log.map f }

/-- Sets the threshold of the console. -/
def setConsoleThreshold (s : Session) (t : Severity) : Session :=
  s.alter fun l => { l with console := { l.console with threshold := t } }

/-- Sets the threshold of the file. -/
def setFileThreshold (s : Session) (t : Severity) : Session :=
  s.alter fun l => { l with fileThreshold := t }

/-- **Closing the file.** The last message in the file says so, and the threshold of the file does
not stay. -/
def closeFile (clock : Clock) (s : Session) : Session :=
  match s.log.bind Log.current with
  | none => s
  | some f =>
    (s.send clock (.streamed .debug (.ascii "closing log " ++ f.name))).alter fun l =>
      { l with current := none, fileThreshold := .silent }

/-- **Opening a file** in place of the one that is open, and whether that was possible. Without a
name the usual one is taken. Which file it is, is for the file system to say. The first message in
the file says that it has been opened. -/
def openFile (fs : FileSystem) (clock : Clock) (s : Session) (name : Text) (threshold : Severity)
    (adding : Bool) : Bool × Session :=
  let s := s.closeFile clock
  match s.log with
  | none => (false, s)
  | some l =>
    let name := if name.isEmpty then l.usualName clock.today else name
    match s.directory.prepare fs name adding with
    | .error reason =>
      (false, s.send clock (.streamed .error
        (.ascii "unable to open log " ++ name ++ .ascii " (" ++ reason ++ .ascii ")")))
    | .ok (file, directory) =>
      let opened : Session :=
        { directory := directory
          log := some { l with current := some ⟨name, file⟩, fileThreshold := threshold } }
      (true, opened.send clock (.streamed .debug (.ascii "logging to " ++ name)))

/-- **Ending a log.** Its file is closed, and it is given back as it is at its end. -/
def finish (clock : Clock) (s : Session) : Option Log × Session :=
  let s := s.closeFile clock
  (s.log, { s with log := none })

end Session

end Micro80
