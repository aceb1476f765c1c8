import Flowchart.Proofs.Settings.Saving
import Flowchart.Proofs.Watch.Single

/-!
Suffixes for what is compiled. A suffix is taken into the settings by one rule and put to a file by
another, and the first lets through what the second refuses: a lone dot, and separators. With any
other suffix every source gets its markup beside it, if a file can have the path; the first rule
lets through null characters too, and any number of characters.
-/
namespace Flowchart

namespace Path

variable {path : Path} {suffix : Text}

/-- The target is in the directory of the path, under this name. -/
structure Beside (path : Path) (name : Text) (target : Path) : Prop where
  directory : target.parent = path.parent
  named : target.name = name
  place : ∀ tree : FileTree, tree.resolve target = tree.resolve path.parent ++ [name]

theorem beside_join {name : Text} (path : Path) (proper : Proper name) :
    path.Beside name (path.parent.join name) where
  directory := by simp [parent, join]
  named := name_join path.parent name
  place tree := by rw [FileTree.resolve_join, step_of_proper proper]

/-- A suffix never takes the whole of a name. -/
theorem length_suffixOfName {name : Text} (named : name ≠ []) :
    (suffixOfName name).length < name.length := by
  rw [suffixOfName]
  split
  · exact List.length_pos_of_ne_nil named
  · rename_i long
    rw [List.length_cons]
    omega

theorem stem_ne_nil (named : path.name ≠ []) : path.stem ≠ [] := by
  have shorter : path.suffix.length < path.name.length := length_suffixOfName named
  apply List.ne_nil_of_length_pos
  rw [stem, List.length_take]
  omega

theorem proper_of_length {name : Text} (long : 2 < name.length) : Proper name := by
  constructor
  · rintro rfl
    contradiction
  · rintro rfl
    contradiction

theorem exists_beside (accepted : isSuffix suffix = true) (long : 1 < suffix.length)
    (named : path.name ≠ []) :
    ∃ target, path.withSuffix suffix = .ok target ∧ path.Beside (path.stem ++ suffix) target := by
  have stemmed := List.length_pos_of_ne_nil (stem_ne_nil named)
  refine ⟨_, withSuffix_eq_ok.mpr ⟨accepted, named, rfl⟩, beside_join path (proper_of_length ?_)⟩
  rw [List.length_append]
  omega

end Path

namespace Settings

variable {raw suffix : Text}

/-- What has to hold of the text that is given for a suffix: it is more than a dot and has no
separator. -/
def Fits (raw : Text) : Prop := raw ≠ [] ∧ raw ≠ ['.'] ∧ '/' ∉ raw

instance (raw : Text) : Decidable (Fits raw) := inferInstanceAs (Decidable (_ ∧ _ ∧ _))

theorem isSuffix_withDot : Path.isSuffix (withDot raw) = true ↔ Fits raw := by
  rw [withDot, Path.isSuffix, Fits]
  split
  · rename_i dotted
    obtain ⟨rest, rfl⟩ := List.head?_eq_some_iff.mp dotted
    simp [and_comm]
  · rename_i plain
    have other : raw ≠ ['.'] := by
      rintro rfl
      exact plain rfl
    simp [other, and_comm]

theorem length_withDot (fits : Fits raw) : 1 < (withDot raw).length := by
  obtain ⟨nonempty, other, _⟩ := fits
  rw [withDot]
  split
  · rename_i dotted
    obtain ⟨rest, rfl⟩ := List.head?_eq_some_iff.mp dotted
    have behind : rest ≠ [] := by
      rintro rfl
      exact other rfl
    have long := List.length_pos_of_ne_nil behind
    rw [List.length_cons]
    omega
  · have long := List.length_pos_of_ne_nil nonempty
    rw [List.length_cons]
    omega

/-- What is at the path is text that compiles to the markup. -/
def HasMarkup (fault : Option Fault) (tree : FileTree) (path : Path) (markup : Text) : Prop :=
  ∃ text, tree.readText path = .ok text ∧ compileWith fault text = .ok markup

/-- A suffix with which there is a path beside every path with a name. Compiling a source, by itself
or while it is watched, leaves its markup there if a file can have that path and no directory has
it. A path that is too long is refused by the file system, which the watch puts up with; over one
with a null character it ends. -/
structure Applicable (suffix : Text) : Prop where
  beside : ∀ path : Path, path.name ≠ [] →
    ∃ target, path.withSuffix suffix = .ok target ∧ path.Beside (path.stem ++ suffix) target
  compiles : ∀ (fault : Option Fault) (tree : FileTree) (path target : Path) (markup : Text),
    HasMarkup fault tree path markup → path.withSuffix suffix = .ok target →
    target.Nameable → tree.isDirectory target = false →
    ∃ after, Sibling.compile fault suffix tree path = .ok (target, after) ∧
      after.read target = .ok (Text.toUtf8 (markup ++ ['\n']))
  goesOn : ∀ (watch : Watch) (session : Watch.Session) (path target : Path) (markup : Text),
    watch.suffix = suffix → watch.concerns session.tree path = true →
    HasMarkup watch.fault session.tree path markup → path.withSuffix suffix = .ok target →
    target.Nameable → session.tree.isDirectory target = false →
    (session.recompile watch path).1.tree.read target = .ok (Text.toUtf8 (markup ++ ['\n'])) ∧
      (watch.console.Shows (watch.doneLine path target) →
        (session.recompile watch path).2 = none)
  fails : ∀ (fault : Option Fault) (tree : FileTree) (path target : Path) (markup : Text),
    HasMarkup fault tree path markup → path.withSuffix suffix = .ok target → ¬target.Nameable →
    Sibling.compile fault suffix tree path = .error
      (if '\x00' ∈ target.toText then .nullCharacter none else .file ⟨.tooLong, target.toText⟩)
  ends : ∀ (watch : Watch) (session : Watch.Session) (path target : Path) (markup : Text),
    watch.suffix = suffix → watch.concerns session.tree path = true →
    HasMarkup watch.fault session.tree path markup → path.withSuffix suffix = .ok target →
    ¬target.Nameable →
    (session.recompile watch path).1.tree = session.tree ∧
      (session.recompile watch path).2 =
        if '\x00' ∈ target.toText then some (.nullCharacter none) else none

/-- A suffix that no path can have. Every source that could be compiled fails over it, and a watch
that comes to one ends. -/
structure Useless (suffix : Text) : Prop where
  refused : ∀ path : Path, path.withSuffix suffix = .error (.invalid suffix)
  fails : ∀ (fault : Option Fault) (tree : FileTree) (path : Path) (markup : Text),
    HasMarkup fault tree path markup →
    Sibling.compile fault suffix tree path = .error (.suffix (.invalid suffix))
  ends : ∀ (watch : Watch) (session : Watch.Session) (path : Path) (markup : Text),
    watch.suffix = suffix → watch.concerns session.tree path = true →
    HasMarkup watch.fault session.tree path markup →
    (session.recompile watch path).2 = some (.suffix (.invalid suffix))

/-- A file cannot be written where none can be. -/
theorem save_of_not_nameable {tree : FileTree} {path target : Path} {text : Text}
    (read : tree.readText path = .ok text) (renamed : path.withSuffix suffix = .ok target)
    (unfit : ¬target.Nameable) (content : Bytes) :
    tree.save target content = .error
      (if '\x00' ∈ target.toText then .nullCharacter none
        else .file ⟨.tooLong, target.toText⟩) := by
  split
  · rename_i null
    rw [FileTree.save_eq_error (FileTree.locate_of_null null)]
    rfl
  · rename_i whole
    obtain ⟨bytes, found, _⟩ := FileTree.readText_eq_ok.mp read
    have located := (FileTree.read_eq_ok.mp found).1
    rw [FileTree.save_eq_error (FileTree.locate_withSuffix_of_long located renamed whole unfit)]
    rfl

theorem applicable_of_isSuffix (accepted : Path.isSuffix suffix = true)
    (long : 1 < suffix.length) : Applicable suffix := by
  have fails (fault : Option Fault) (tree : FileTree) (path target : Path) (markup : Text)
      (source : HasMarkup fault tree path markup) (renamed : path.withSuffix suffix = .ok target)
      (unfit : ¬target.Nameable) : Sibling.compile fault suffix tree path = .error
        (if '\x00' ∈ target.toText then .nullCharacter none
          else .file ⟨.tooLong, target.toText⟩) := by
    obtain ⟨text, read, given⟩ := source
    exact Sibling.compile_of_save read given renamed (save_of_not_nameable read renamed unfit _)
  refine ⟨fun path named => Path.exists_beside accepted long named, ?_, ?_, fails, ?_⟩
  · intro fault tree path target markup source renamed nameable free
    obtain ⟨text, read, given⟩ := source
    obtain ⟨after, saved⟩ :=
      FileTree.save_withSuffix read renamed nameable free (Text.toUtf8 (markup ++ ['\n']))
    exact ⟨after, Sibling.compile_eq_ok.mpr ⟨text, markup, read, given, renamed, saved⟩,
      FileTree.read_save saved⟩
  · rintro watch session path target markup rfl concerned ⟨text, read, given⟩ renamed nameable free
    exact Watch.Session.read_recompile concerned read given renamed nameable free
  · rintro watch session path target markup rfl concerned source renamed unfit
    have failed := fails watch.fault session.tree path target markup source renamed unfit
    refine ⟨Watch.Session.recompile_of_error failed, ?_⟩
    by_cases null : '\x00' ∈ target.toText
    · rw [if_pos null] at failed ⊢
      exact Watch.Session.recompile_ends concerned failed (by simp) (by simp)
    · rw [if_neg null] at failed ⊢
      exact Watch.Session.recompile_of_refused failed

theorem useless_of_not_isSuffix (rejected : Path.isSuffix suffix = false) : Useless suffix := by
  have refused (path : Path) : path.withSuffix suffix = .error (.invalid suffix) := by
    rw [Path.withSuffix, rejected]
    rfl
  have fails (fault : Option Fault) (tree : FileTree) (path : Path) (markup : Text)
      (source : HasMarkup fault tree path markup) :
      Sibling.compile fault suffix tree path = .error (.suffix (.invalid suffix)) := by
    obtain ⟨text, read, given⟩ := source
    simp [Sibling.compile, read, given, refused, bind, Except.bind]
  refine ⟨refused, fails, ?_⟩
  rintro watch session path markup rfl concerned source
  have failed := fails watch.fault session.tree path markup source
  exact Watch.Session.recompile_ends concerned failed (by simp) (by simp)

theorem coerced_of_store {home : Home} {tree : FileTree} {name : Text} {value : Toml.Value}
    (stored : (store home tree name raw).result = .ok value) :
    coerceByName name raw = .ok value := by
  rw [store] at stored
  split at stored
  · contradiction
  · rename_i coerced given
    obtain ⟨_, _, same⟩ := ok_of_map stored
    rw [given, same]

/-- A suffix that is stored is the text given for it, with a dot in front. Paths have targets
exactly if the text is more than a dot and has no separator; with any other, no path has one. -/
theorem stored_suffix_applicable {home : Home} {tree : FileTree} {value : Toml.Value}
    (stored : (store home tree "output_suffix".toList raw).result = .ok value) :
    value = .text (withDot raw) ∧ (Fits raw → Applicable (withDot raw)) ∧
      (¬Fits raw → Useless (withDot raw)) := by
  refine ⟨(Except.ok.inj (coerced_of_store stored)).symm, ?_, ?_⟩
  · intro fits
    exact applicable_of_isSuffix (isSuffix_withDot.mpr fits) (length_withDot fits)
  · intro unfit
    exact useless_of_not_isSuffix (Bool.eq_false_iff.mpr (mt isSuffix_withDot.mp unfit))

theorem store_suffix (raw : Text)
    (saved : (save flowHome {} [("output_suffix".toList, .text (withDot raw))]).result.toOption =
      some ()) :
    (store flowHome {} "output_suffix".toList raw).result = .ok (.text (withDot raw)) := by
  have coerced : coerceByName "output_suffix".toList raw = .ok (.text (withDot raw)) := rfl
  rw [store, coerced]
  dsimp only
  rw [ok_of_toOption saved]
  rfl

/-- Two dots are a suffix like any other. -/
theorem stored_suffix_applicable_dots :
    (store flowHome {} "output_suffix".toList "..".toList).result = .ok (.text "..".toList) ∧
      Applicable "..".toList := by
  have stored := store_suffix "..".toList (by decide +kernel)
  exact ⟨stored, (stored_suffix_applicable stored).2.1 (by decide)⟩

/-- A suffix of nothing is taken and stored as a lone dot, which no path can have. -/
theorem lone_dot_stored :
    (store flowHome {} "output_suffix".toList []).result = .ok (.text ['.']) ∧
      ∀ path : Path, path.withSuffix ['.'] = .error (.invalid ['.']) := by
  exact ⟨store_suffix [] (by decide +kernel), (useless_of_not_isSuffix (by decide)).refused⟩

end Settings

end Flowchart
