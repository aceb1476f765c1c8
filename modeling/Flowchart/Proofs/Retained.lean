import Flowchart.Proofs.FileTree

/-!
File trees in which files were written at some places and nothing else happened. Every path leads to
where it led, and a file is read as before unless it is at one of these places, where text is.
-/
namespace Flowchart

namespace Path

theorem withSuffix_eq_ok {path target : Path} {suffix : Text} :
    path.withSuffix suffix = .ok target ↔
      isSuffix suffix = true ∧ path.name ≠ [] ∧
        target = path.parent.join (path.stem ++ suffix) := by
  rw [withSuffix]
  cases isSuffix suffix with
  | false => simp
  | true => by_cases nameless : path.name = [] <;> simp [nameless, eq_comm]

/-- Only the last component of a path has another name. -/
theorem parts_withSuffix {path target : Path} {suffix : Text}
    (renamed : path.withSuffix suffix = .ok target) :
    path.parts ≠ [] ∧ target.root = path.root ∧
      ∃ name, target.parts = path.parts.dropLast ++ [name] := by
  obtain ⟨_, named, rfl⟩ := withSuffix_eq_ok.mp renamed
  refine ⟨fun empty => named ?_, rfl, _, rfl⟩
  rw [name, empty]
  rfl

end Path

namespace FileTree

variable {tree middle after : FileTree} {path : Path} {content : Bytes} {place location : Location}
  {touched wider : Location → Prop}

/-- The same tree but for the files at the touched places, which hold text. -/
structure Retained (touched : Location → Prop) (tree after : FileTree) : Prop where
  here : after.here = tree.here
  directory : ∀ place,
    after.entry? place = some .directory ↔ tree.entry? place = some .directory
  content : ∀ place, after.content? place = tree.content? place ∨
    touched place ∧ ∃ text : Text, after.content? place = some text.toUtf8

namespace Retained

theorem refl (tree : FileTree) : Retained touched tree tree where
  here := rfl
  directory _ := Iff.rfl
  content _ := .inl rfl

theorem mono (retained : Retained touched tree after)
    (within : ∀ place, touched place → wider place) : Retained wider tree after where
  here := retained.here
  directory := retained.directory
  content place := (retained.content place).imp_right (And.imp_left (within place))

theorem trans (first : Retained touched tree middle) (later : Retained touched middle after) :
    Retained touched tree after where
  here := later.here.trans first.here
  directory place := (later.directory place).trans (first.directory place)
  content place := by
    rcases later.content place with same | written
    · rw [same]
      exact first.content place
    · exact .inr written

theorem of_save {text : Text} (saved : tree.save path text.toUtf8 = .ok after) :
    Retained (tree.resolve path = ·) tree after := by
  obtain ⟨location, located, free, rfl⟩ := save_eq_ok saved
  have inside : location ≠ [] := ne_nil_of_free free
  rw [resolve_of_locate located]
  refine ⟨rfl, fun place => ?_, fun place => ?_⟩
  · rw [at_put inside]
    split
    · rename_i same
      simpa [same] using free
    · rfl
  · rw [content?_put_file inside]
    split
    · rename_i same
      exact .inr ⟨same, text, rfl⟩
    · exact .inl rfl

/-! ### Paths in both trees -/

theorem resolve_eq (retained : Retained touched tree after) (path : Path) :
    after.resolve path = tree.resolve path := by
  rw [resolve, resolve, start, start, retained.here]

theorem locate_eq_ok (retained : Retained touched tree after) :
    after.locate path = .ok location ↔ tree.locate path = .ok location := by
  constructor
  · exact locate_of_directories (fun place => (retained.directory place).mp) retained.here.symm
  · exact locate_of_directories (fun place => (retained.directory place).mpr) retained.here

end Retained

theorem isDirectory_iff : tree.isDirectory path = true ↔
    ∃ location, tree.locate path = .ok location ∧ tree.entry? location = some .directory := by
  rw [isDirectory, find]
  cases tree.locate path with
  | error _ => simp [bind, Except.bind]
  | ok location =>
    simp only [bind, Except.bind, Except.ok.injEq, exists_eq_left']
    cases tree.entry? location with
    | none => simp
    | some entry => cases entry <;> simp

theorem isFile_of_isDirectory (directory : tree.isDirectory path = true) :
    tree.isFile path = false := by
  obtain ⟨location, located, there⟩ := isDirectory_iff.mp directory
  rw [isFile, find, located]
  simp only [bind, Except.bind, there]

theorem read_eq_ok : tree.read path = .ok content ↔
    tree.locate path = .ok (tree.resolve path) ∧
      tree.content? (tree.resolve path) = some content := by
  constructor
  · intro found
    obtain ⟨entry, looked, _⟩ := ok_of_bind found
    obtain ⟨location, located, _⟩ := ok_of_bind looked
    exact ⟨by rw [resolve_of_locate located, located], content?_of_read found⟩
  · rintro ⟨located, held⟩
    obtain ⟨entry, there, file⟩ := Option.bind_eq_some_iff.mp held
    rw [read, find, located]
    simp only [bind, Except.bind, there]
    cases entry with
    | directory => contradiction
    | file bytes => exact congrArg Except.ok (Option.some.inj file)

namespace Retained

theorem isDirectory_eq (retained : Retained touched tree after) (path : Path) :
    after.isDirectory path = tree.isDirectory path := by
  rw [Bool.eq_iff_iff, isDirectory_iff, isDirectory_iff]
  simp only [retained.locate_eq_ok, retained.directory]

theorem read_eq_ok (retained : Retained touched tree after)
    (apart : ¬touched (tree.resolve path)) :
    after.read path = .ok content ↔ tree.read path = .ok content := by
  have same : after.content? (tree.resolve path) = tree.content? (tree.resolve path) :=
    (retained.content _).resolve_right fun written => apart written.1
  rw [FileTree.read_eq_ok, FileTree.read_eq_ok, retained.resolve_eq, retained.locate_eq_ok, same]

end Retained

/-- What can be read is text, as far as bytes can tell. -/
theorem readText_eq_ok {shown : Text} : tree.readText path = .ok shown ↔
    ∃ bytes, tree.read path = .ok bytes ∧ Utf8.decodeLines bytes = .ok shown := by
  rw [readText]
  cases tree.read path with
  | error _ => simp
  | ok bytes =>
    simp only [Except.ok.injEq, exists_eq_left']
    cases Utf8.decodeLines bytes with
    | error _ => simp
    | ok text => simp

theorem readText_eq_encoding {error : Utf8.Error} :
    tree.readText path = .error (.encoding error) ↔
      ∃ bytes, tree.read path = .ok bytes ∧ Utf8.decodeLines bytes = .error error := by
  rw [readText]
  cases tree.read path with
  | error obstacle => cases obstacle <;> simp [Failure.ofObstacle]
  | ok bytes =>
    simp only [Except.ok.injEq, exists_eq_left']
    cases Utf8.decodeLines bytes with
    | error _ => simp
    | ok text => simp

theorem isDirectory_of_readText {shown : Text} (found : tree.readText path = .ok shown) :
    tree.isDirectory path = false := by
  obtain ⟨bytes, read, _⟩ := readText_eq_ok.mp found
  obtain ⟨located, held⟩ := read_eq_ok.mp read
  rw [isDirectory, find, located]
  simp only [bind, Except.bind]
  obtain ⟨entry, there, file⟩ := Option.bind_eq_some_iff.mp held
  rw [there]
  cases entry with
  | directory => contradiction
  | file _ => rfl

/-- What is at the path, if anything is, can be decoded. -/
def Decodes (tree : FileTree) (path : Path) : Prop :=
  ∀ error, tree.readText path ≠ .error (.encoding error)

instance (tree : FileTree) (path : Path) : Decidable (tree.Decodes path) :=
  match read : tree.readText path with
  | .error (.encoding error) => .isFalse fun decodes => decodes error read
  | .ok _ | .error (.file _) | .error (.nullCharacter _) | .error (.suffix _)
  | .error (.compile _) | .error (.fault _) =>
    .isTrue fun error broken => by simp [read] at broken

theorem system_of_read {obstacle : Obstacle} (whole : '\x00' ∉ path.toText)
    (stopped : tree.read path = .error obstacle) : ∃ cause, obstacle = .system cause := by
  rw [read, find] at stopped
  cases located : tree.locate path with
  | error first =>
    rw [located] at stopped
    obtain rfl : first = obstacle := Except.error.inj stopped
    exact system_of_locate whole located
  | ok location =>
    rw [located] at stopped
    simp only [bind, Except.bind] at stopped
    cases there : tree.entry? location with
    | none =>
      rw [there] at stopped
      exact ⟨_, (Except.error.inj stopped).symm⟩
    | some entry =>
      rw [there] at stopped
      cases entry with
      | file content => contradiction
      | directory => exact ⟨_, (Except.error.inj stopped).symm⟩

/-- Where what is read can be decoded, only the file system can fail. -/
theorem Decodes.error (decodes : tree.Decodes path) (whole : '\x00' ∉ path.toText)
    {failure : Failure} (failed : tree.readText path = .error failure) :
    ∃ error, failure = .file error := by
  rw [readText] at failed
  split at failed
  · rename_i obstacle stopped
    obtain ⟨cause, rfl⟩ := system_of_read whole stopped
    exact ⟨_, (Except.error.inj failed).symm⟩
  · rename_i bytes found
    cases decoded : Utf8.decodeLines bytes with
    | error error => exact absurd (readText_eq_encoding.mpr ⟨bytes, found, decoded⟩) (decodes error)
    | ok text =>
      rw [decoded] at failed
      contradiction

theorem save_eq_error {obstacle : Obstacle} (stopped : tree.locate path = .error obstacle) :
    tree.save path content = .error (.ofObstacle path obstacle) := by
  rw [save, write, target, stopped]
  rfl

theorem error_of_save {failure : Failure} (whole : '\x00' ∉ path.toText)
    (failed : tree.save path content = .error failure) : ∃ error, failure = .file error := by
  cases located : tree.locate path with
  | error obstacle =>
    obtain ⟨cause, rfl⟩ := system_of_locate whole located
    rw [save_eq_error located] at failed
    exact ⟨_, (Except.error.inj failed).symm⟩
  | ok location =>
    rw [save, write, target, located] at failed
    simp only [bind, Except.bind] at failed
    split at failed
    · exact ⟨_, (Except.error.inj failed).symm⟩
    · contradiction

namespace Retained

theorem readText_eq_ok (retained : Retained touched tree after)
    (apart : ¬touched (tree.resolve path)) {shown : Text} :
    after.readText path = .ok shown ↔ tree.readText path = .ok shown := by
  rw [FileTree.readText_eq_ok, FileTree.readText_eq_ok]
  simp only [retained.read_eq_ok apart]

/-- What was written can be decoded, so what cannot be decoded was there before. -/
theorem decodes (retained : Retained touched tree after) (decodes : tree.Decodes path) :
    after.Decodes path := by
  intro error broken
  apply decodes error
  obtain ⟨bytes, found, stops⟩ := FileTree.readText_eq_encoding.mp broken
  obtain ⟨located, held⟩ := FileTree.read_eq_ok.mp found
  rw [retained.resolve_eq] at located held
  rcases retained.content (tree.resolve path) with same | ⟨_, text, written⟩
  · rw [same] at held
    have before := FileTree.read_eq_ok.mpr ⟨retained.locate_eq_ok.mp located, held⟩
    exact FileTree.readText_eq_encoding.mpr ⟨bytes, before, stops⟩
  · rw [written] at held
    rw [← Option.some.inj held, Utf8.decodeLines_toUtf8] at stops
    contradiction

end Retained

/-! ### A file beside another one -/

theorem read_save (saved : tree.save path content = .ok after) : after.read path = .ok content := by
  rw [read, find_save saved]
  rfl

/-- A path that can be followed leads through a directory to its name. -/
theorem parent_of_locate (located : tree.locate path = .ok location) (inside : path.parts ≠ []) :
    ∃ parent, path.parts.dropLast.foldlM tree.enter (tree.start path) = .ok parent ∧
      tree.entry? parent = some .directory := by
  obtain ⟨_, _, followed⟩ := locate_eq_ok.mp located
  rw [← List.dropLast_concat_getLast inside, List.foldlM_append] at followed
  obtain ⟨parent, reached, entered⟩ := ok_of_bind followed
  rw [List.foldlM_cons] at entered
  obtain ⟨next, opened, _⟩ := ok_of_bind entered
  exact ⟨parent, reached, (enter_eq_ok.mp opened).1⟩

/-- Another name in the directory of a path is looked for there. -/
theorem foldlM_enter_withSuffix {suffix : Text} {target : Path}
    (located : tree.locate path = .ok location) (renamed : path.withSuffix suffix = .ok target) :
    ∃ parent, tree.entry? parent = some .directory ∧
      target.parts.foldlM tree.enter (tree.start target) = tree.enter parent target.name := by
  obtain ⟨inside, root, name, parts⟩ := Path.parts_withSuffix renamed
  obtain ⟨parent, reached, directory⟩ := parent_of_locate located inside
  have named : target.name = name := by
    rw [Path.name, parts, List.getLast?_concat, Option.getD_some]
  have start : tree.start target = tree.start path := by
    rw [FileTree.start, FileTree.start, root]
  refine ⟨parent, directory, ?_⟩
  rw [named, start, parts, List.foldlM_append, reached]
  simp only [bind, Except.bind, List.foldlM_cons, List.foldlM_nil]
  cases tree.enter parent name <;> rfl

theorem names_withSuffix {suffix : Text} {target : Path}
    (located : tree.locate path = .ok location) (renamed : path.withSuffix suffix = .ok target)
    (short : target.name.toUtf8.length ≤ nameLimit) :
    ∀ part ∈ target.parts, part.toUtf8.length ≤ nameLimit := by
  obtain ⟨inside, root, name, parts⟩ := Path.parts_withSuffix renamed
  have named : target.name = name := by
    rw [Path.name, parts, List.getLast?_concat, Option.getD_some]
  intro part member
  rw [parts] at member
  rcases List.mem_append.mp member with above | last
  · exact (nameable_of_locate located).names part (List.dropLast_subset _ above)
  · rw [List.mem_singleton.mp last, ← named]
    exact short

/-- The directory of a path that can be followed can be entered by another name that a file can
have. -/
theorem locate_withSuffix {suffix : Text} {target : Path}
    (located : tree.locate path = .ok location) (renamed : path.withSuffix suffix = .ok target)
    (nameable : target.Nameable) : ∃ sibling, tree.locate target = .ok sibling := by
  obtain ⟨parent, directory, followed⟩ := foldlM_enter_withSuffix located renamed
  obtain ⟨inside, _, name, parts⟩ := Path.parts_withSuffix renamed
  have last : target.name ∈ target.parts := by
    rw [Path.name, parts, List.getLast?_concat, Option.getD_some]
    exact List.mem_append_right _ (List.mem_singleton_self name)
  have entered := enter_eq_ok.mpr ⟨directory, nameable.names _ last, rfl⟩
  exact ⟨_, locate_eq_ok.mpr ⟨nameable.whole, nameable.short, followed.trans entered⟩⟩

/-- Any other name but for a null character is too long. -/
theorem locate_withSuffix_of_long {suffix : Text} {target : Path}
    (located : tree.locate path = .ok location) (renamed : path.withSuffix suffix = .ok target)
    (whole : '\x00' ∉ target.toText) (long : ¬target.Nameable) :
    tree.locate target = .error (.system .tooLong) := by
  obtain ⟨parent, directory, followed⟩ := foldlM_enter_withSuffix located renamed
  rw [locate, if_neg whole]
  split
  · rfl
  · rename_i short
    have tooLong : nameLimit < target.name.toUtf8.length := by
      refine Nat.lt_of_not_le fun fits => ?_
      exact long ⟨whole, Nat.not_lt.mp short, names_withSuffix located renamed fits⟩
    rw [followed, enter, directory]
    exact if_pos tooLong

/-- Where a file is, one with another suffix can be written, if it can have the name and no
directory has it. -/
theorem save_withSuffix {suffix : Text} {target : Path} {shown : Text}
    (found : tree.readText path = .ok shown) (renamed : path.withSuffix suffix = .ok target)
    (nameable : target.Nameable) (free : tree.isDirectory target = false) (content : Bytes) :
    ∃ after, tree.save target content = .ok after := by
  obtain ⟨bytes, read, _⟩ := readText_eq_ok.mp found
  obtain ⟨sibling, located⟩ := locate_withSuffix (read_eq_ok.mp read).1 renamed nameable
  have open_ : tree.entry? sibling ≠ some .directory := by
    intro directory
    rw [isDirectory_iff.mpr ⟨sibling, located, directory⟩] at free
    contradiction
  exact ⟨_, by rw [save, write, target_eq_ok.mpr ⟨located, open_⟩]; rfl⟩

end FileTree

end Flowchart
