import Flowchart.Proofs.Text.Pieces
import Flowchart.Proofs.Watch.Pass

/-!
The pass at the start of a watch. It goes over every source below the directory, and each of them is
compiled whatever becomes of the others, as long as all of them can be decoded; two sources of one
name share their target, which is then the later one's.
-/
namespace Flowchart

/-- The names in the tree are names that files have. -/
def FileTree.WellNamed (tree : FileTree) : Prop :=
  ∀ place ∈ tree.entries.keys, ∀ name ∈ place, '/' ∉ name ∧ '\x00' ∉ name

instance (tree : FileTree) : Decidable tree.WellNamed :=
  inferInstanceAs (Decidable (∀ place ∈ _, ∀ name ∈ place, _))

namespace Path

variable {path target : Path} {suffix : Text} {c : Char}

theorem mem_parts_of_mem_name (member : c ∈ path.name) : ∃ part ∈ path.parts, c ∈ part := by
  rw [name] at member
  cases last : path.parts.getLast? with
  | none =>
    rw [last] at member
    contradiction
  | some part =>
    rw [last] at member
    exact ⟨part, List.mem_of_getLast? last, member⟩

theorem whole_of_parts (root : '\x00' ∉ path.root) (parts : ∀ part ∈ path.parts, '\x00' ∉ part) :
    '\x00' ∉ path.toText := by
  rw [toText]
  split
  · decide
  · intro member
    rcases List.mem_append.mp member with first | later
    · exact root first
    · rcases Text.mem_of_mem_intercalate later with slash | ⟨part, known, inside⟩
      · exact absurd slash (by decide)
      · exact parts part known inside

theorem whole_of_withSuffix (root : '\x00' ∉ path.root)
    (parts : ∀ part ∈ path.parts, '\x00' ∉ part) (whole : '\x00' ∉ suffix)
    (renamed : path.withSuffix suffix = .ok target) : '\x00' ∉ target.toText := by
  obtain ⟨_, _, rfl⟩ := withSuffix_eq_ok.mp renamed
  refine whole_of_parts root fun part member => ?_
  rcases List.mem_append.mp member with above | last
  · exact parts part (List.dropLast_subset _ above)
  · rw [List.mem_singleton.mp last]
    intro inside
    rcases List.mem_append.mp inside with own | added
    · obtain ⟨part, known, within⟩ := mem_parts_of_mem_name (List.mem_of_mem_take own)
      exact parts part known within
    · exact whole added

end Path

namespace Watch

variable {watch : Watch} {tree : FileTree} {path : Path}

/-- On a lenient console a path of names that files have is harmless if it can be decoded. -/
theorem harmless_of_decodes (lenient : watch.console.Lenient) (whole : '\x00' ∉ watch.suffix)
    (root : '\x00' ∉ path.root) (parts : ∀ part ∈ path.parts, '/' ∉ part ∧ '\x00' ∉ part)
    (decodes : tree.Decodes path) : watch.Harmless tree path := by
  have named : '/' ∉ watch.console.escape path.name := by
    refine lenient.escape _ fun slash => ?_
    obtain ⟨part, known, inside⟩ := Path.mem_parts_of_mem_name slash
    exact (parts part known).1 inside
  have shown (mark sign text : Text) (known : mark ∈ [Markup.tick, Markup.cross])
      (free : '/' ∉ sign) : watch.console.Shows ("  ".toList ++ mark ++ [' '] ++
        watch.console.escape path.name ++ (sign ++ [' ']) ++ watch.console.escape text) := by
    have line := lenient.shows mark known ([' '] ++ watch.console.escape path.name ++ sign) text ?_
    · simpa only [List.append_assoc, List.cons_append, List.nil_append] using line
    · intro slash
      rcases List.mem_append.mp slash with front | last
      · exact (List.mem_cons.mp front).elim (by decide) named
      · exact free last
  refine ⟨decodes, Path.whole_of_parts root fun part known => (parts part known).2, ?_, ?_⟩
  · intro target renamed
    refine ⟨Path.whole_of_withSuffix root (fun part known => (parts part known).2) whole renamed,
      ?_⟩
    exact shown Markup.tick " →".toList target.name (by simp) (by decide)
  · intro source error wrong
    exact shown Markup.cross ":".toList error.message (by simp) (by decide)

theorem mem_initialSources (directory : tree.isDirectory watch.path = true) :
    path ∈ watch.initialSources tree ↔
      ∃ place ∈ tree.below watch.location,
        path = .ofLocation place ∧ path.hasSourceSuffix = true := by
  rw [initialSources, FileTree.isFile_of_isDirectory directory, if_neg Bool.false_ne_true]
  simp only [List.mem_map, List.mem_mergeSort, List.mem_filter]
  constructor
  · rintro ⟨place, ⟨below, source⟩, rfl⟩
    exact ⟨place, below, rfl, source⟩
  · rintro ⟨place, below, rfl, source⟩
    exact ⟨place, ⟨below, source⟩, rfl⟩

theorem exists_withSuffix {suffix : Text} (accepted : Path.isSuffix suffix = true)
    (source : path.hasSourceSuffix = true) : ∃ target, path.withSuffix suffix = .ok target := by
  have named : path.name ≠ [] := by
    intro nameless
    rw [Path.hasSourceSuffix, Path.suffix, nameless] at source
    contradiction
  rw [Path.withSuffix, accepted, if_neg named]
  exact ⟨_, rfl⟩

theorem withSuffix_of_mem_initialSources (directory : tree.isDirectory watch.path = true)
    (accepted : Path.isSuffix watch.suffix = true) :
    ∀ path ∈ watch.initialSources tree, ∃ target, path.withSuffix watch.suffix = .ok target := by
  intro path member
  obtain ⟨_, _, _, source⟩ := (mem_initialSources directory).mp member
  exact exists_withSuffix accepted source

section Pass

variable (directory : tree.isDirectory watch.path = true)
  (accepted : Path.isSuffix watch.suffix = true) (whole : '\x00' ∉ watch.suffix)
  (named : tree.WellNamed) (lenient : watch.console.Lenient) (report : Report)

include directory whole named lenient in
theorem harmless_of_mem_initialSources (decodes : tree.Decodes path)
    (member : path ∈ watch.initialSources tree) : watch.Harmless tree path := by
  obtain ⟨place, below, rfl, _⟩ := (mem_initialSources directory).mp member
  have known : place ∈ tree.entries.keys := (List.mem_filter.mp below).1
  have root : '\x00' ∉ (Path.ofLocation place).root := by
    change '\x00' ∉ ['/']
    decide
  exact harmless_of_decodes lenient whole root (named place known) decodes

include directory accepted whole named lenient in
theorem pass_passes (decodes : ∀ path ∈ watch.initialSources tree, tree.Decodes path) :
    (Session.pass watch tree report).2 = none := by
  refine Session.handleAll_passes_of_harmless (fun path member => ?_)
    (withSuffix_of_mem_initialSources directory accepted)
  exact harmless_of_mem_initialSources directory whole named lenient (decodes path member) member

include directory accepted whole named lenient in
theorem read_pass {before behind : List Path} {text markup : Text} {target : Path}
    (order : watch.initialSources tree = before ++ path :: behind)
    (decodes : ∀ other ∈ before, tree.Decodes other) (read : tree.readText path = .ok text)
    (given : compileWith watch.fault text = .ok markup)
    (renamed : path.withSuffix watch.suffix = .ok target) (nameable : target.Nameable)
    (free : tree.isDirectory target = false)
    (kept : some (tree.resolve path) ∉ before.map (watch.destination? tree))
    (last : some (tree.resolve target) ∉ behind.map (watch.destination? tree)) :
    (Session.pass watch tree report).1.tree.read target =
      .ok (Text.toUtf8 (markup ++ ['\n'])) := by
  have among (other : Path) (member : other ∈ before) : other ∈ watch.initialSources tree := by
    rw [order]
    exact List.mem_append_left _ member
  rw [Session.pass, order]
  refine Session.read_handleAll directory ?_ read given renamed nameable free kept last
  refine Session.handleAll_passes_of_harmless (fun other member => ?_) fun other member => ?_
  · exact harmless_of_mem_initialSources directory whole named lenient (decodes other member)
      (among other member)
  · exact withSuffix_of_mem_initialSources directory accepted other (among other member)

end Pass

/-- The pass reaches its end if every source can be decoded, and it leaves the markup of a source at
a target that a file can have, if no source before cannot be decoded or has the source for its
target, and no source behind has the same target. A source that cannot be read or compiled makes no
difference. -/
theorem pass_compiles (watch : Watch) (tree : FileTree) (report : Report)
    (directory : tree.isDirectory watch.path = true)
    (accepted : Path.isSuffix watch.suffix = true) (whole : '\x00' ∉ watch.suffix)
    (named : tree.WellNamed) (lenient : watch.console.Lenient) :
    (∀ path, path ∈ watch.initialSources tree ↔
      ∃ place ∈ tree.below watch.location,
        path = .ofLocation place ∧ path.hasSourceSuffix = true) ∧
    ((∀ path ∈ watch.initialSources tree, tree.Decodes path) →
      (Session.pass watch tree report).2 = none) ∧
    ∀ before path behind text markup target,
      watch.initialSources tree = before ++ path :: behind →
      (∀ other ∈ before, tree.Decodes other) →
      tree.readText path = .ok text → compileWith watch.fault text = .ok markup →
      path.withSuffix watch.suffix = .ok target → target.Nameable →
      tree.isDirectory target = false →
      some (tree.resolve path) ∉ before.map (watch.destination? tree) →
      some (tree.resolve target) ∉ behind.map (watch.destination? tree) →
      (Session.pass watch tree report).1.tree.read target =
        .ok (Text.toUtf8 (markup ++ ['\n'])) := by
  refine ⟨fun path => mem_initialSources directory, ?_, ?_⟩
  · intro decodes
    exact pass_passes directory accepted whole named lenient report decodes
  · intro before path behind text markup target order decodes read given
    exact read_pass directory accepted whole named lenient report order decodes read given

/-- Two sources with one target, and a directory with the name of a source. -/
def twins : FileTree where
  entries := [(["w".toList], .directory),
    (["w".toList, "a.flow".toList], .file (Text.toUtf8 "x".toList)),
    (["w".toList, "a.flowdsl".toList], .file (Text.toUtf8 "y".toList)),
    (["w".toList, "c.flow".toList], .directory)]

def ofTwins : Watch where
  location := ["w".toList]
  debounce := 1.0
  suffix := ".mmd".toList
  console := .tagged

theorem initialSources_twins : ofTwins.initialSources twins =
    [.ofLocation ["w".toList, "a.flow".toList]] ++
      .ofLocation ["w".toList, "a.flowdsl".toList] ::
        [.ofLocation ["w".toList, "c.flow".toList]] := by
  rw [initialSources, if_neg (by decide +kernel)]
  dsimp only
  rw [List.mergeSort_of_pairwise (by decide)]
  decide

theorem decodes_twins : ∀ place ∈ twins.entries.keys, twins.Decodes (.ofLocation place) := by
  decide +kernel

/-- The later of two sources with one target has it. -/
theorem pass_compiles_twins :
    (Session.pass ofTwins twins {}).2 = none ∧
      (Session.pass ofTwins twins {}).1.tree.read (.ofLocation ["w".toList, "a.mmd".toList]) =
        .ok (Text.toUtf8 (compile "y".toList ++ ['\n'])) := by
  obtain ⟨sources, ends, compiles⟩ := pass_compiles ofTwins twins {} (by decide +kernel) (by decide)
    (by decide) (by decide) Console.lenient_tagged
  constructor
  · apply ends
    intro path member
    obtain ⟨place, below, rfl, _⟩ := (sources path).mp member
    exact decodes_twins place (List.mem_filter.mp below).1
  · exact compiles _ _ _ "y".toList (compile "y".toList) _ initialSources_twins (by decide +kernel)
      (ok_of_toOption (by decide +kernel)) rfl rfl (by decide +kernel) (by decide +kernel)
      (by decide) (by decide +kernel)

/-- Not every target holds the markup of its source. -/
theorem not_every_target_compiled :
    ¬∀ (watch : Watch) (tree : FileTree) (report : Report),
      tree.isDirectory watch.path = true → Path.isSuffix watch.suffix = true →
      watch.suffix ≠ ".flow".toList → watch.suffix ≠ ".flowdsl".toList → watch.fault = none →
      ∀ path ∈ watch.initialSources tree, ∀ text target,
        tree.readText path = .ok text → path.withSuffix watch.suffix = .ok target →
        tree.isDirectory target = false →
        (Session.pass watch tree report).1.tree.read target =
          .ok (Text.toUtf8 (compile text ++ ['\n'])) := by
  intro every
  have first := every ofTwins twins {} (by decide +kernel) (by decide) (by decide) (by decide) rfl
    (.ofLocation ["w".toList, "a.flow".toList]) (by rw [initialSources_twins]; decide) "x".toList
    (.ofLocation ["w".toList, "a.mmd".toList]) (ok_of_toOption (by decide +kernel)) rfl
    (by decide +kernel)
  have second : (Session.pass ofTwins twins {}).1.tree.read (.ofLocation ["w".toList,
      "a.mmd".toList]) = .ok (Text.toUtf8 (compile "y".toList ++ ['\n'])) :=
    read_pass (by decide +kernel) (by decide) (by decide) (by decide) Console.lenient_tagged {}
      initialSources_twins (by decide +kernel) (ok_of_toOption (by decide +kernel)) rfl rfl
      (by decide +kernel) (by decide +kernel) (by decide) (by decide +kernel)
  exact absurd (Except.ok.inj (first.symm.trans second)) (by decide +kernel)

end Watch

end Flowchart
