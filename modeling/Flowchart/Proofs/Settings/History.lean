import Flowchart.Proofs.Settings.Section

/-!
Calls on the settings file, one after the other. What a run of calls leaves in force for a key is
the value that was stored last, unless all values were cleared after that; everything else in the
file stays.
-/
namespace Flowchart.Settings

variable {home : Home} {tree : FileTree} {document start read dumped : Toml.Document}
  {name raw : Text} {key : Key}

/-! ### Calls and what they do -/

inductive Call where
  | set (name raw : Text)
  | reset
  | load
  | get (name : Text)

/-- What a call that succeeds does to the values in force. -/
inductive Event where
  | stored (name : Text) (value : Toml.Value)
  | cleared

namespace Call

/-- The file tree after a call. -/
def apply (home : Home) (tree : FileTree) : Call → FileTree
  | set name raw => (store home tree name raw).tree
  | reset => (Settings.reset home tree).tree
  | load | get _ => tree

/-- The document that a call gives the writer. -/
def document? (home : Home) (tree : FileTree) : Call → Option Toml.Document
  | set name raw => toStore? home tree name raw
  | reset => toClear? home tree
  | load | get _ => none

def event? (home : Home) (tree : FileTree) : Call → Option Event
  | set name raw => (store home tree name raw).result.toOption.map (.stored name)
  | reset => (Settings.reset home tree).result.toOption.map fun () => .cleared
  | load | get _ => none

end Call

/-- The file tree after a run of calls. -/
def run (home : Home) (tree : FileTree) (calls : List Call) : FileTree :=
  calls.foldl (Call.apply home) tree

/-- What is seen of the calls of a run, each in the file tree that it meets. -/
def along {α : Type} (home : Home) (see : FileTree → Call → Option α) (tree : FileTree) :
    List Call → List α
  | [] => []
  | call :: rest => (see tree call).toList ++ along home see (call.apply home tree) rest

def history (home : Home) (tree : FileTree) (calls : List Call) : List Event :=
  along home (Call.event? home) tree calls

def handed (home : Home) (tree : FileTree) (calls : List Call) : List Toml.Document :=
  along home (Call.document? home) tree calls

theorem run_concat (home : Home) (tree : FileTree) (calls : List Call) (call : Call) :
    run home tree (calls ++ [call]) = call.apply home (run home tree calls) := by
  rw [run, run, List.foldl_append]
  rfl

theorem along_concat {α : Type} (see : FileTree → Call → Option α) (calls : List Call)
    (call : Call) :
    along home see tree (calls ++ [call]) =
      along home see tree calls ++ (see (run home tree calls) call).toList := by
  induction calls generalizing tree with
  | nil => exact List.append_nil _
  | cons first rest ih =>
    rw [List.cons_append, along, along, ih, List.append_assoc]
    rfl

/-- The value that an event leaves in force for a key, where it is about the key. -/
def Event.decides? (key : Key) : Event → Option Toml.Value
  | stored name value => if name = key.name then some value else none
  | cleared =>
    let standard : Settings := {}
    some (standard.get key)

/-- The value of the last event about a key; without one, the value at the start. -/
def lastValue (history : List Event) (key : Key) (initial : Toml.Value) : Toml.Value :=
  (history.reverse.findSome? (·.decides? key)).getD initial

theorem lastValue_concat (history : List Event) (event : Event) (key : Key)
    (initial : Toml.Value) :
    lastValue (history ++ [event]) key initial =
      (event.decides? key).getD (lastValue history key initial) := by
  rw [lastValue, lastValue, List.reverse_append, List.reverse_singleton, List.singleton_append,
    List.findSome?_cons]
  cases event.decides? key <;> rfl

/-! ### What a run keeps -/

/-- A document that has come from another one through a history of events. -/
structure Accords (start : Toml.Document) (history : List Event) (document : Toml.Document) :
    Prop where
  sectioned : Sectioned document
  values : ∀ key, inForce document key = lastValue history key (inForce start key)
  others : ∀ path, Outside path → Toml.view path document = Toml.view path start
  kept : .cleared ∉ history → ∀ name, Key.ofName? name = none → ∀ rest,
    Toml.view (.entry sectionName :: .entry name :: rest) document =
      Toml.view (.entry sectionName :: .entry name :: rest) start
  gone : .cleared ∈ history → ∀ name, Key.ofName? name = none → ∀ rest,
    Toml.view (.entry sectionName :: .entry name :: rest) document = none

namespace Accords

variable {history : List Event}

theorem nil (sectioned : Sectioned document) : Accords document [] document where
  sectioned := sectioned
  values _ := rfl
  others _ _ := rfl
  kept _ _ _ _ := rfl
  gone := nofun

theorem of_agrees (accords : Accords start history dumped) (agrees : Agrees read dumped) :
    Accords start history read where
  sectioned := agrees.sectioned accords.sectioned
  values key := (agrees.inForce key).trans (accords.values key)
  others path outside := (agrees.view path).trans (accords.others path outside)
  kept whole name unknown rest := (agrees.view _).trans (accords.kept whole name unknown rest)
  gone lost name unknown rest := (agrees.view _).trans (accords.gone lost name unknown rest)

/-- A value that is stored becomes the last one of its key, and nothing else changes. -/
theorem storing (accords : Accords start history document) {value : Toml.Value}
    (given : coerce key value.plain = .ok value) :
    Accords start (history ++ [.stored key.name value]) (storing document key.name value) where
  sectioned := .inr ⟨_, (Table.get?_put ..).trans (if_pos rfl)⟩
  values other := by
    rw [inForce_storing document other given, lastValue_concat, accords.values, Event.decides?]
    simp only [Key.name_inj]
    split <;> rfl
  others path outside := (view_put_outside document _ outside).trans (accords.others path outside)
  kept whole name unknown rest := by
    have earlier : .cleared ∉ history := fun lost => whole (List.mem_append_left _ lost)
    rw [view_storing_unknown document key value unknown, accords.kept earlier name unknown]
  gone lost name unknown rest := by
    have earlier : .cleared ∈ history := by
      simpa using lost
    rw [view_storing_unknown document key value unknown, accords.gone earlier name unknown]

/-- Without the section every key has its default, and nothing else changes. -/
theorem erase (accords : Accords start history document) :
    Accords start (history ++ [.cleared]) (document.erase sectionName) where
  sectioned := .inl ((Table.get?_erase ..).trans (if_pos rfl))
  values key := by
    rw [inForce_erase, lastValue_concat]
    rfl
  others path outside := (view_erase_outside document outside).trans (accords.others path outside)
  kept whole := absurd (List.mem_append_right history (List.mem_singleton_self _)) whole
  gone _ name _ rest := by
    rw [view_section, sectionOf_erase]
    rfl

end Accords

/-- What is assumed of a call: a document that it writes is read back, and a number that it stores
is read from its numeral. -/
structure Call.Faithful (home : Home) (tree : FileTree) (call : Call) : Prop where
  readsBack : ∀ document, call.document? home tree = some document → ReadsBack home.library document
  readable : ∀ name raw number, call = set name raw →
    coerceByName name raw = .ok (.decimal number) →
    Decimal.read? (Decimal.text 2 number) = some number

/-- One call: the document in the file afterwards accords with the history and the event of the
call. -/
theorem Accords.apply {history : List Event} {call : Call} (holds : Holds home tree document)
    (accords : Accords start history document) (faithful : call.Faithful home tree) :
    ∃ after, Holds home (call.apply home tree) after ∧
      Accords start (history ++ (call.event? home tree).toList) after := by
  have unchanged : Accords start (history ++ []) document := by
    rwa [List.append_nil]
  cases call with
  | load => exact ⟨document, holds, unchanged⟩
  | get name => exact ⟨document, holds, unchanged⟩
  -- An attempt that fails has no event and no effect.
  | reset =>
    rw [Call.apply, Call.event?]
    rcases reset_cases holds faithful.readsBack with
      ⟨error, failed, same⟩ | ⟨done, read, agrees, held⟩
    · rw [failed, same]
      exact ⟨document, holds, unchanged⟩
    · rw [done]
      exact ⟨read, held, accords.erase.of_agrees agrees⟩
  | set name raw =>
    rw [Call.apply, Call.event?]
    have readable (number : Float) := faithful.readable name raw number rfl
    rcases store_cases holds accords.sectioned faithful.readsBack readable with
      ⟨error, failed, same⟩ | ⟨key, value, read, rfl, plain, done, agrees, held⟩
    · rw [failed, same]
      exact ⟨document, holds, unchanged⟩
    · rw [done]
      exact ⟨read, held, (accords.storing plain).of_agrees agrees⟩

/-- What is assumed of a run: every document that is written is read back, and every number that is
stored is read from its numeral. -/
structure Faithful (home : Home) (tree : FileTree) (calls : List Call) : Prop where
  readsBack : ∀ document ∈ handed home tree calls, ReadsBack home.library document
  readable : ∀ name raw number, .set name raw ∈ calls →
    coerceByName name raw = .ok (.decimal number) →
    Decimal.read? (Decimal.text 2 number) = some number

theorem Faithful.concat {calls : List Call} {call : Call}
    (faithful : Faithful home tree (calls ++ [call])) :
    Faithful home tree calls ∧ call.Faithful home (run home tree calls) := by
  have split : handed home tree (calls ++ [call]) =
      handed home tree calls ++ (call.document? home (run home tree calls)).toList :=
    along_concat _ calls call
  constructor
  · constructor
    · intro document member
      exact faithful.readsBack document (split ▸ List.mem_append_left _ member)
    · intro name raw number member
      exact faithful.readable name raw number (List.mem_append_left _ member)
  · constructor
    · intro document given
      refine faithful.readsBack document ?_
      rw [split, given]
      exact List.mem_append_right _ (List.mem_singleton_self document)
    · intro name raw number same
      refine faithful.readable name raw number ?_
      exact same ▸ List.mem_append_right _ (List.mem_singleton_self _)

/-- A run of calls: the document in the file at its end accords with its history. -/
theorem accords_run {calls : List Call} (holds : Holds home tree start)
    (sectioned : Sectioned start) (faithful : Faithful home tree calls) :
    ∃ last, Holds home (run home tree calls) last ∧
      Accords start (history home tree calls) last := by
  induction calls using List.reverseRecOn with
  | nil => exact ⟨start, holds, .nil sectioned⟩
  | append_singleton before call ih =>
    obtain ⟨earlier, now⟩ := faithful.concat
    obtain ⟨document, held, accords⟩ := ih earlier
    rw [run_concat, history, along_concat]
    exact accords.apply held now

theorem Faithful.front {front : List Call} {call : Call} {back : List Call}
    (faithful : Faithful home tree (front ++ call :: back)) :
    Faithful home tree front ∧ call.Faithful home (run home tree front) := by
  induction back using List.reverseRecOn with
  | nil => exact faithful.concat
  | append_singleton before last ih =>
    have longer : front ++ call :: (before ++ [last]) = (front ++ call :: before) ++ [last] := by
      rw [List.append_assoc, List.cons_append]
    rw [longer] at faithful
    exact ih faithful.concat.1

/-- What a run of calls makes of a settings file with a document, where `initial` are the settings
at the start and `last` is the document at the end. -/
structure LastWriteWins (home : Home) (tree : FileTree) (start : Toml.Document)
    (calls : List Call) (initial : Settings) (last : Toml.Document) : Prop where
  loaded : (load home tree).1 = .ok initial
  holds : Holds home (run home tree calls) last
  known : ∀ key : Key, (lookup home (run home tree calls) key.name).1 =
    .ok (lastValue (history home tree calls) key (initial.get key))
  others : ∀ path, Outside path → Toml.view path last = Toml.view path start
  kept : .cleared ∉ history home tree calls → ∀ name, Key.ofName? name = none → ∀ rest,
    Toml.view (.entry sectionName :: .entry name :: rest) last =
      Toml.view (.entry sectionName :: .entry name :: rest) start
  gone : .cleared ∈ history home tree calls → ∀ name, Key.ofName? name = none → ∀ rest,
    Toml.view (.entry sectionName :: .entry name :: rest) last = none
  failed : ∀ front name raw back error, calls = front ++ .set name raw :: back →
    (store home (run home tree front) name raw).result = .error error →
    (store home (run home tree front) name raw).tree = run home tree front

/-- The settings file keeps what was written last. After any run of calls a known key has the value
that was stored for it last since the section was cleared, else its default if it was cleared, else
the value that loading gave at the start. What is outside of the section stays, entries of unknown
keys stay until the section is cleared, and an attempt to store a value that fails leaves the file
tree as it was. -/
theorem run_last_write {home : Home} {tree : FileTree} {start : Toml.Document} {calls : List Call}
    (holds : Holds home tree start) (sectioned : Sectioned start)
    (faithful : Faithful home tree calls) :
    ∃ initial last, LastWriteWins home tree start calls initial last := by
  obtain ⟨initial, loaded, got⟩ := holds.load
  obtain ⟨last, held, accords⟩ := accords_run holds sectioned faithful
  refine ⟨initial, last, loaded, held, ?_, accords.others, accords.kept, accords.gone, ?_⟩
  · intro key
    rw [held.lookup key, accords.values key, got key]
  · rintro front name raw back error rfl failed
    obtain ⟨earlier, now⟩ := faithful.front
    obtain ⟨document, there, known⟩ := accords_run holds sectioned earlier
    have readable (number : Float) := now.readable name raw number rfl
    rcases store_cases there known.sectioned now.readsBack readable with
      ⟨_, _, same⟩ | ⟨key, value, read, _, _, done, _⟩
    · exact same
    · rw [done] at failed
      contradiction

set_option maxRecDepth 2000 in
/-- A section that is cleared, a value for a known key and one for an unknown key. -/
theorem run_last_write_of_theme :
    let calls : List Call :=
      [.reset, .set "ink_theme".toList "dark".toList, .set "theme".toList "dark".toList]
    ∃ initial last, LastWriteWins flowHome {} [] calls initial last := by
  intro calls
  let emptied : FileTree :=
    { entries := [(["flowdsl_home".toList], .directory),
        (["flowdsl_home".toList, "config.toml".toList], .file [])] }
  let theme : Toml.Document := storing [] "ink_theme".toList (.text "dark".toList)
  have empties : Call.reset.apply flowHome {} = emptied := by decide +kernel
  have held : Holds flowHome emptied [] := .inr ⟨[], ok_of_toOption (by decide +kernel), rfl⟩
  have first : Call.reset.document? flowHome {} = some [] := rfl
  have second :
      (Call.set "ink_theme".toList "dark".toList).document? flowHome emptied = some theme := by
    have given : coerceByName "ink_theme".toList "dark".toList = .ok (.text "dark".toList) := rfl
    rw [Call.document?, toStore?, given, Except.toOption, Option.bind_some,
      merged_of_holds held (.inl rfl)]
    rfl
  have both : handed flowHome {} calls = [[], theme] := by
    rw [handed, along, along, along, along, empties, first, second]
    rfl
  refine run_last_write (.inl ⟨rfl, rfl⟩) (.inl rfl) ⟨?_, ?_⟩
  · rw [both]
    intro document member
    rcases List.mem_cons.mp member with rfl | later
    · exact ⟨[], [], rfl, rfl, .refl []⟩
    · rw [List.mem_singleton.mp later]
      exact ⟨"[flowdsl]\nink_theme = \"dark\"\n".toList, theme, ok_of_toOption (by decide +kernel),
        by rfl, .refl theme⟩
  · intro name raw number member given
    simp only [calls, List.mem_cons, Call.set.injEq, List.not_mem_nil, or_false] at member
    rcases member with same | ⟨rfl, rfl⟩ | ⟨rfl, rfl⟩
    · cases same
    · cases given
    · cases given

end Flowchart.Settings
