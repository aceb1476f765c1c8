import Flowchart.Failure
import Flowchart.Proofs.Text.Utf8

/-!
What writing a file does to a file tree. A file is never written over a directory, so every path
that could be followed can still be followed, the file can be read at its path, and all other files
keep their contents.
-/
namespace Flowchart

/-- A path that a file can have. -/
structure Path.Nameable (path : Path) : Prop where
  whole : '\x00' ∉ path.toText
  short : path.toText.toUtf8.length ≤ FileTree.pathLimit
  names : ∀ part ∈ path.parts, part.toUtf8.length ≤ FileTree.nameLimit

instance (path : Path) : Decidable path.Nameable :=
  decidable_of_iff ('\x00' ∉ path.toText ∧ path.toText.toUtf8.length ≤ FileTree.pathLimit ∧
      ∀ part ∈ path.parts, part.toUtf8.length ≤ FileTree.nameLimit)
    ⟨fun ⟨whole, short, names⟩ => ⟨whole, short, names⟩,
      fun nameable => ⟨nameable.whole, nameable.short, nameable.names⟩⟩

namespace FileTree

def Entry.content? : Entry → Option Bytes
  | .directory => none
  | .file content => some content

variable {tree after : FileTree} {location place here next : Location} {path other : Path}
  {content : Bytes}

/-- The content of the regular file at a location. -/
def content? (tree : FileTree) (location : Location) : Option Bytes :=
  (tree.entry? location).bind Entry.content?

theorem ne_nil_of_free (free : tree.entry? location ≠ some .directory) : location ≠ [] := by
  rintro rfl
  exact free rfl

theorem at_put (inside : location ≠ []) (entry : Entry) (place : Location) :
    entry? (tree.put location entry) place =
      if location = place then some entry else tree.entry? place := by
  cases place with
  | nil => rw [if_neg inside]; rfl
  | cons part parts => exact Table.get?_put tree.entries location (part :: parts) entry

theorem content?_put_file (inside : location ≠ []) (content : Bytes) (place : Location) :
    (tree.put location (.file content)).content? place =
      if location = place then some content else tree.content? place := by
  rw [content?, at_put inside]
  split <;> rfl

/-! ### Following a path -/

theorem enter_eq_ok {part : Text} :
    tree.enter here part = .ok next ↔
      tree.entry? here = some .directory ∧ part.toUtf8.length ≤ nameLimit ∧
        next = step here part := by
  rw [enter]
  split
  · rename_i missing
    simp [missing]
  · rename_i file
    simp [file]
  · rename_i directory
    split
    · rename_i long
      simp [directory, Nat.not_le.mpr long]
    · rename_i short
      simp [directory, Nat.not_lt.mp short, eq_comm]

theorem foldlM_enter_eq_foldl {parts : List Text}
    (found : parts.foldlM tree.enter here = .ok next) : next = parts.foldl step here := by
  induction parts generalizing here with
  | nil => exact (Except.ok.inj found).symm
  | cons part parts ih =>
    rw [List.foldlM_cons] at found
    obtain ⟨entered, first, later⟩ := ok_of_bind found
    rw [ih later, (enter_eq_ok.mp first).2.2, List.foldl_cons]

theorem names_of_foldlM_enter {parts : List Text}
    (found : parts.foldlM tree.enter here = .ok next) :
    ∀ part ∈ parts, part.toUtf8.length ≤ nameLimit := by
  induction parts generalizing here with
  | nil => exact fun _ member => absurd member List.not_mem_nil
  | cons part parts ih =>
    rw [List.foldlM_cons] at found
    obtain ⟨entered, first, later⟩ := ok_of_bind found
    exact List.forall_mem_cons.mpr ⟨(enter_eq_ok.mp first).2.1, ih later⟩

/-- A path is followed if the system looks at it at all. -/
theorem locate_eq_ok : tree.locate path = .ok location ↔
    '\x00' ∉ path.toText ∧ path.toText.toUtf8.length ≤ pathLimit ∧
      path.parts.foldlM tree.enter (tree.start path) = .ok location := by
  rw [locate]
  split
  · rename_i ends
    simp [ends]
  · rename_i whole
    split
    · rename_i long
      simp [Nat.not_le.mpr long]
    · rename_i short
      simp [whole, Nat.not_lt.mp short]

theorem system_of_foldlM_enter {parts : List Text} {obstacle : Obstacle}
    (stopped : parts.foldlM tree.enter here = .error obstacle) :
    ∃ cause, obstacle = .system cause := by
  induction parts generalizing here with
  | nil => contradiction
  | cons part parts ih =>
    rw [List.foldlM_cons] at stopped
    cases entered : tree.enter here part with
    | ok next =>
      rw [entered] at stopped
      exact ih stopped
    | error first =>
      rw [entered] at stopped
      obtain rfl : first = obstacle := Except.error.inj stopped
      rw [enter] at entered
      split at entered
      · exact ⟨_, (Except.error.inj entered).symm⟩
      · exact ⟨_, (Except.error.inj entered).symm⟩
      · split at entered
        · exact ⟨_, (Except.error.inj entered).symm⟩
        · contradiction

theorem locate_of_null (ends : '\x00' ∈ path.toText) :
    tree.locate path = .error .nullCharacter := by
  rw [locate, if_pos ends]

/-- Only a null character keeps the system from being asked. -/
theorem system_of_locate {obstacle : Obstacle} (whole : '\x00' ∉ path.toText)
    (stopped : tree.locate path = .error obstacle) : ∃ cause, obstacle = .system cause := by
  rw [locate, if_neg whole] at stopped
  split at stopped
  · exact ⟨_, (Except.error.inj stopped).symm⟩
  · exact system_of_foldlM_enter stopped

theorem nameable_of_locate (found : tree.locate path = .ok location) : path.Nameable := by
  obtain ⟨whole, short, followed⟩ := locate_eq_ok.mp found
  exact ⟨whole, short, names_of_foldlM_enter followed⟩

/-- A path that can be followed leads to its place. -/
theorem resolve_of_locate (found : tree.locate path = .ok location) :
    tree.resolve path = location :=
  (foldlM_enter_eq_foldl (locate_eq_ok.mp found).2.2).symm

/-- What has the directories of a tree lets every path be followed that the tree lets be followed.
-/
theorem foldlM_enter_of_directories
    (kept : ∀ place, tree.entry? place = some .directory → after.entry? place = some .directory)
    {parts : List Text} (found : parts.foldlM tree.enter here = .ok next) :
    parts.foldlM after.enter here = .ok next := by
  induction parts generalizing here with
  | nil => exact found
  | cons part parts ih =>
    rw [List.foldlM_cons] at found ⊢
    obtain ⟨entered, first, later⟩ := ok_of_bind found
    obtain ⟨directory, short, rfl⟩ := enter_eq_ok.mp first
    rw [enter_eq_ok.mpr ⟨kept here directory, short, rfl⟩]
    exact ih later

theorem locate_of_directories
    (kept : ∀ place, tree.entry? place = some .directory → after.entry? place = some .directory)
    (same : after.here = tree.here) (found : tree.locate path = .ok location) :
    after.locate path = .ok location := by
  obtain ⟨whole, short, followed⟩ := locate_eq_ok.mp found
  have start : after.start path = tree.start path := by
    rw [FileTree.start, FileTree.start, same]
  exact locate_eq_ok.mpr
    ⟨whole, short, start ▸ foldlM_enter_of_directories kept followed⟩

theorem directory_put (free : tree.entry? location ≠ some .directory) (content : Bytes)
    (directory : tree.entry? place = some .directory) :
    entry? (tree.put location (.file content)) place = some .directory := by
  -- No directory is lost, because the file is put where none is.
  have apart : location ≠ place := by
    rintro rfl
    exact free directory
  rw [at_put (ne_nil_of_free free), if_neg apart, directory]

theorem locate_put (free : tree.entry? location ≠ some .directory) (content : Bytes)
    (found : tree.locate path = .ok place) :
    (tree.put location (.file content)).locate path = .ok place :=
  locate_of_directories (fun _ => directory_put free content) rfl found

/-! ### Reading -/

/-- What is read is the content of the file at the place of the path. -/
theorem content?_of_read (found : tree.read path = .ok content) :
    tree.content? (tree.resolve path) = some content := by
  obtain ⟨entry, looked, file⟩ := ok_of_bind found
  obtain ⟨location, located, there⟩ := ok_of_bind looked
  rw [resolve_of_locate located, content?]
  cases shown : tree.entry? location with
  | none =>
    rw [shown] at there
    contradiction
  | some held =>
    rw [shown] at there
    rw [Except.ok.inj there]
    cases entry with
    | directory => contradiction
    | file bytes => exact congrArg some (Except.ok.inj file)

/-- A text that is read is the one that the file has the bytes of, but for its line breaks. -/
theorem content?_of_readText {shown : Text} (found : tree.readText path = .ok shown) :
    ∃ text, tree.content? (tree.resolve path) = some (Text.toUtf8 text) ∧
      shown = Text.normalizeBreaks text := by
  rw [readText] at found
  split at found
  · contradiction
  · rename_i bytes read
    obtain ⟨text, rfl, same⟩ := Utf8.decodeLines_eq_ok.mp (ok_of_mapError found)
    exact ⟨text, content?_of_read read, same⟩

theorem nameable_of_find {entry : Entry} (found : tree.find path = .ok entry) : path.Nameable := by
  obtain ⟨location, located, _⟩ := ok_of_bind found
  exact nameable_of_locate located

theorem look_eq_some {entry : Entry} :
    tree.look path = .ok (some entry) ↔ tree.find path = .ok entry := by
  rw [look]
  split
  · rename_i held found
    simp [found]
  · rename_i long
    simp [long]
  · rename_i stopped
    simp [stopped]

/-- Where nothing is, nothing is read. -/
theorem readText_of_look {shown : Text} (nothing : tree.look path = .ok none) :
    tree.readText path ≠ .ok shown := by
  intro read
  rw [readText] at read
  split at read
  · contradiction
  · rename_i bytes held
    obtain ⟨entry, found, _⟩ := ok_of_bind held
    cases (look_eq_some.mpr found).symm.trans nothing

theorem look_of_read (found : tree.read path = .ok content) :
    ∃ entry, tree.look path = .ok (some entry) := by
  obtain ⟨entry, held, _⟩ := ok_of_bind found
  exact ⟨entry, look_eq_some.mpr held⟩

theorem look_of_readText {shown : Text} (found : tree.readText path = .ok shown) :
    ∃ entry, tree.look path = .ok (some entry) := by
  rw [readText] at found
  split at found
  · contradiction
  · rename_i bytes read
    exact look_of_read read

/-! ### Saving -/

theorem target_eq_ok : tree.target path = .ok location ↔
    tree.locate path = .ok location ∧ tree.entry? location ≠ some .directory := by
  rw [target]
  cases tree.locate path with
  | error cause => simp [bind, Except.bind]
  | ok found =>
    simp only [bind, Except.bind]
    split
    · rename_i directory
      constructor
      · intro stopped
        contradiction
      · rintro ⟨same, free⟩
        exact absurd (Except.ok.inj same ▸ directory) free
    · rename_i free
      constructor
      · intro same
        exact ⟨same, Except.ok.inj same ▸ free⟩
      · exact And.left

/-- A file that is saved is put at the place of its path, where no directory is. -/
theorem save_eq_ok (saved : tree.save path content = .ok after) :
    ∃ location, tree.locate path = .ok location ∧ tree.entry? location ≠ some .directory ∧
      after = tree.put location (.file content) := by
  obtain ⟨location, found, same⟩ := ok_of_map (ok_of_mapError saved)
  obtain ⟨located, free⟩ := target_eq_ok.mp found
  exact ⟨location, located, free, same.symm⟩

/-- Saving a file leaves all files at other places as they were. -/
theorem content?_save (saved : tree.save path content = .ok after)
    (apart : place ≠ tree.resolve path) : after.content? place = tree.content? place := by
  obtain ⟨location, located, free, rfl⟩ := save_eq_ok saved
  rw [resolve_of_locate located] at apart
  rw [content?_put_file (ne_nil_of_free free), if_neg apart.symm]

/-- What was saved is what is found at its path. -/
theorem find_save (saved : tree.save path content = .ok after) :
    after.find path = .ok (.file content) := by
  obtain ⟨location, located, free, rfl⟩ := save_eq_ok saved
  rw [find, locate_put free content located]
  simp only [bind, Except.bind]
  rw [at_put (ne_nil_of_free free), if_pos rfl]

theorem readText_save {text : Text} (saved : tree.save path text.toUtf8 = .ok after) :
    after.readText path = .ok text.normalizeBreaks := by
  rw [readText, read, find_save saved]
  exact congrArg (Except.mapError Failure.encoding) (Utf8.decodeLines_toUtf8 text)

/-! ### Making directories -/

theorem content?_put_directory (fresh : tree.entry? location = none) (place : Location) :
    (tree.put location .directory).content? place = tree.content? place := by
  have inside : location ≠ [] := ne_nil_of_free (by rw [fresh]; simp)
  rw [content?, content?, at_put inside]
  split
  · rename_i same
    rw [← same, fresh]
    rfl
  · rfl

/-- With a directory at a place, unless something is there. -/
def ensured (tree : FileTree) (place : Location) : FileTree :=
  if (tree.entry? place).isSome then tree else tree.put place .directory

theorem content?_ensured (tree : FileTree) (location place : Location) :
    (tree.ensured location).content? place = tree.content? place := by
  rw [ensured]
  split
  · rfl
  · rename_i fresh
    exact content?_put_directory (Option.not_isSome_iff_eq_none.mp fresh) place

theorem here_ensured (tree : FileTree) (location : Location) :
    (tree.ensured location).here = tree.here := by
  rw [ensured]
  split <;> rfl

/-- What making one directory keeps, making all of them keeps. -/
theorem makeDirectories_keeps {α : Type} (see : FileTree → α)
    (kept : ∀ tree place, see (tree.ensured place) = see tree) (tree : FileTree)
    (location : Location) : see (tree.makeDirectories location) = see tree := by
  have along (places : List Location) : ∀ tree, see (places.foldl ensured tree) = see tree := by
    induction places with
    | nil => exact fun _ => rfl
    | cons first rest ih => exact fun tree => (ih (tree.ensured first)).trans (kept tree first)
  exact along (lineage location) tree

/-- Directories are made in empty places only, so no file changes. -/
theorem content?_makeDirectories (location place : Location) :
    (tree.makeDirectories location).content? place = tree.content? place :=
  makeDirectories_keeps (·.content? place) (content?_ensured · · place) tree location

/-- Directories that are made leave the place of every path where it was. -/
theorem resolve_makeDirectories (location : Location) (path : Path) :
    (tree.makeDirectories location).resolve path = tree.resolve path := by
  rw [resolve, resolve, start, start, makeDirectories_keeps (·.here) here_ensured]

end FileTree

end Flowchart
