import Micro80.Text

/-!
# Directories and file systems

A directory holds files with their contents. Programs know files by names only, and where a name
leads is a matter of the file system: it finds the file, which need not exist yet, or has a reason
why no file can be opened by that name. Nothing else is said of file systems here. There may be
names of any form, and several names of one file.

To open a file for writing makes it exist. What has been in it stays if what is written is to be
added to it, and otherwise the file is emptied. Whatever is written then comes to its end.

## Main definitions

* `Directory`, with `Directory.content?`, `Directory.put` and `Directory.append`.
* `FileSystem`: where names lead.
* `Directory.prepare`: opening a file for writing.
-/

namespace Micro80

/-! ### Directories -/

/-- **Directories.** Files and their contents. A file is told from others by a text of its own,
which need not be the name by which it is opened. -/
structure Directory where
  files : List (Text × Text)

namespace Directory

/-- The directory without files. -/
def empty : Directory := ⟨[]⟩

/-- The content of a file. -/
def content? (d : Directory) (file : Text) : Option Text := d.files.lookup file

/-- The directory after a file has been given a content. -/
def put (d : Directory) (file content : Text) : Directory :=
  ⟨(file, content) :: d.files.filter fun f => f.1 ≠ file⟩

/-- The directory after something has been added at the end of a file. -/
def append (d : Directory) (file addition : Text) : Directory :=
  d.put file ((d.content? file).getD [] ++ addition)

@[simp] theorem content?_put_self (d : Directory) (file content : Text) :
    (d.put file content).content? file = some content := by
  simp [content?, put]

theorem content?_put_of_ne (d : Directory) {file other : Text} (content : Text)
    (h : other ≠ file) : (d.put file content).content? other = d.content? other := by
  unfold put content?
  have differs : (other == file) = false := by simpa using h
  rw [List.lookup_cons, differs]
  show (d.files.filter _).lookup other = d.files.lookup other
  induction d.files with
  | nil => rfl
  | cons f rest ih =>
    obtain ⟨n, c⟩ := f
    by_cases e : n = file
    · subst e
      rw [List.filter_cons_of_neg (by simp), ih, List.lookup_cons, differs]
    · rw [List.filter_cons_of_pos (by simpa using e), List.lookup_cons, List.lookup_cons, ih]

/-- What is added to a file is at its end. -/
theorem content?_append_self (d : Directory) (file addition : Text) :
    (d.append file addition).content? file = some ((d.content? file).getD [] ++ addition) :=
  d.content?_put_self _ _

/-- Adding to a file leaves the other files as they are. -/
theorem content?_append_of_ne (d : Directory) {file other : Text} (addition : Text)
    (h : other ≠ file) : (d.append file addition).content? other = d.content? other :=
  d.content?_put_of_ne _ h

end Directory

/-! ### Opening files -/

/-- **File systems.** -/
structure FileSystem where
  /-- The file to which a name leads, whether that is among the files of the directory or not, or
  the reason why no file can be opened by that name. -/
  find : Directory → Text → Except Text Text

/-- **Opening for writing.** The file to which a name leads, and the directory in which that file
exists and, unless what is written is to be added to it, is empty. -/
def Directory.prepare (d : Directory) (fs : FileSystem) (name : Text) (adding : Bool) :
    Except Text (Text × Directory) :=
  match fs.find d name with
  | .error reason => .error reason
  | .ok file => .ok (file, d.put file (if adding then (d.content? file).getD [] else []))

end Micro80
