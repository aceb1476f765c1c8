import Flowchart.Proofs.Chain
import Flowchart.Proofs.Cut
import Flowchart.Proofs.Draft.Basic

/-!
Chains read from the other end. A route is a row of operands with an arrow between each two, and its
line has one edge for each arrow. The operands from last to first, with every arrow turned round,
have the same edges from last to first.
-/
namespace Flowchart

namespace Arrow

/-- The arrow as it is seen from the other side. -/
def flip : Arrow → Arrow
  | forward => backward
  | backward => forward

/-- The edge that an arrow between two ends stands for. -/
def between (arrow : Arrow) (left right : Ident) : Edge :=
  match arrow with
  | forward => ⟨left, right, none⟩
  | backward => ⟨right, left, none⟩

theorem between_flip (arrow : Arrow) (left right : Ident) :
    arrow.flip.between right left = arrow.between left right := by
  cases arrow <;> rfl

end Arrow

namespace Chain

def Operand.marks : List Char := [':', '\n']

/-- An operand without a caption in which no arrow stands between blanks. It does not end with an
arrow behind a blank either, which the blank in front of the next arrow would set apart. -/
structure Operand extends Phrase Operand.marks where
  unspaced : ∀ (arrow : Arrow) (blank space : Char), Text.isBlank blank = true →
    Text.isBlank space = true → ¬[blank, arrow.mark, space] <:+: text
  unended : ∀ (arrow : Arrow) (blank : Char), Text.isBlank blank = true →
    ¬[blank, arrow.mark] <:+ text

namespace Operand

theorem mem_zip_tail (front : Text) (c d : Char) (back : Text) :
    (c, d) ∈ (front ++ c :: d :: back).zip (front ++ c :: d :: back).tail := by
  induction front with
  | nil => exact List.mem_cons_self
  | cons e front ih =>
    cases front with
    | nil => exact List.mem_cons_of_mem _ ih
    | cons first rest => exact List.mem_cons_of_mem _ ih

/-- An operand in which no arrow stands behind a blank. -/
def ofPhrase (phrase : Phrase marks) (apart : ∀ pair ∈ phrase.text.zip phrase.text.tail,
    Text.isBlank pair.1 = true → pair.2 ≠ '>' ∧ pair.2 ≠ '<') : Operand :=
  have behind (front : Text) (blank : Char) (arrow : Arrow) (back : Text)
      (spaced : Text.isBlank blank = true) :
      phrase.text ≠ front ++ blank :: arrow.mark :: back := by
    intro parts
    have both := apart (blank, arrow.mark) (parts ▸ mem_zip_tail front blank arrow.mark back) spaced
    cases arrow with
    | forward => exact both.1 rfl
    | backward => exact both.2 rfl
  { phrase with
    unspaced := by
      rintro arrow blank space spaced - ⟨front, back, parts⟩
      exact behind front blank arrow (space :: back) spaced (by simpa using parts.symm)
    unended := by
      rintro arrow blank spaced ⟨front, parts⟩
      exact behind front blank arrow [] spaced parts.symm }

def id (operand : Operand) : Ident := Ident.ofLabel (Text.stripQuotes operand.text)

/-- No arrow is found from inside of an operand, whatever follows it. -/
theorem arrow?_inside (operand : Operand) {front back : Text} (parts : front ++ back = operand.text)
    (nonempty : back ≠ []) (rest : Text) : arrow? (back ++ rest) = none := by
  cases found : arrow? (back ++ rest) with
  | none => rfl
  | some cut =>
    obtain ⟨arrow, after⟩ := cut
    obtain ⟨gap, space, joined, gapBlank, spaceBlank, gapped, spaced, -⟩ := spaced_of_arrow? found
    obtain ⟨lead, blank, rfl⟩ := (List.eq_nil_or_concat' gap).resolve_left gapped
    obtain ⟨first, more, rfl⟩ := List.exists_cons_of_ne_nil spaced
    have blankBlank : Text.isBlank blank = true := gapBlank blank (by simp)
    have firstBlank : Text.isBlank first = true := spaceBlank first List.mem_cons_self
    rcases Cut.append_cases joined with ⟨mid, within, _⟩ | ⟨mid, shown, beyond, tails⟩
    · -- The last character of the operand can be seen, so it is not in the gap.
      have visible := (parts ▸ operand.trimmed).getLast_visible
        (List.append_ne_nil_of_right_ne_nil front nonempty)
      rw [List.getLast_append_of_right_ne_nil _ _ nonempty] at visible
      have spaces := gapBlank _ (within ▸ List.mem_append_left mid (List.getLast_mem nonempty))
      rw [visible] at spaces
      contradiction
    · obtain ⟨mark, mid, rfl⟩ := List.exists_cons_of_ne_nil shown
      obtain ⟨rfl, behind⟩ := List.cons.inj tails
      cases mid with
      | nil =>
        refine absurd ⟨front ++ lead, ?_⟩ (operand.unended arrow blank blankBlank)
        rw [← parts, beyond]
        simp
      | cons d mid =>
        obtain ⟨rfl, -⟩ := List.cons.inj behind
        refine absurd ⟨front ++ lead, mid, ?_⟩
          (operand.unspaced arrow blank first blankBlank firstBlank)
        rw [← parts, beyond]
        simp

theorem splitLabel_text (operand : Operand) : splitLabel operand.text = (operand.text, none) :=
  splitLabel_of_not_mem (operand.free ':' (by decide))

theorem edge_between (left right : Operand) (arrow : Arrow) :
    Link.edge ⟨left.text, arrow, right.text⟩ = arrow.between left.id right.id := by
  rw [Link.edge, right.splitLabel_text]
  cases arrow <;> rfl

end Operand

/-! ### Operands in a row -/

/-- Operands with an arrow and two spaces between each two of them. -/
def written : {n : Nat} → (Fin (n + 1) → Operand) → (Fin n → Arrow) → Text
  | 0, operand, _ => (operand 0).text
  | _ + 1, operand, arrow =>
    (operand 0).text ++ ' ' :: (arrow 0).mark :: ' ' ::
      written (fun i => operand i.succ) (fun i => arrow i.succ)

variable {n : Nat} (operand : Fin (n + 1) → Operand) (arrow : Fin n → Arrow)

theorem trimmed_written : written operand arrow ≠ [] ∧ Text.Trimmed (written operand arrow) := by
  induction n with
  | zero => exact ⟨(operand 0).nonempty, (operand 0).trimmed⟩
  | succ n ih =>
    obtain ⟨nonempty, trimmed⟩ := ih (fun i => operand i.succ) (fun i => arrow i.succ)
    have joined := (operand 0).trimmed.append trimmed (operand 0).nonempty nonempty
      [' ', (arrow 0).mark, ' ']
    constructor
    · exact List.append_ne_nil_of_left_ne_nil (operand 0).nonempty _
    · simpa [written] using joined

/-- A row comes apart into its operands. -/
theorem split_written : split (written operand arrow) =
    ((operand 0).text, List.ofFn fun i => (arrow i, (operand i.succ).text)) := by
  have first (rest : Text) := @split_append (operand 0).text rest fun _ _ parts nonempty =>
    (operand 0).arrow?_inside parts nonempty rest
  induction n with
  | zero =>
    have nothing : split [] = ([], []) := split_of_free nofun
    simpa [nothing, written] using first []
  | succ n ih =>
    have behind := ih (fun i => operand i.succ) (fun i => arrow i.succ) fun rest =>
      split_append fun _ _ parts nonempty => (operand 1).arrow?_inside parts nonempty rest
    have trimmed := (trimmed_written (fun i => operand i.succ) (fun i => arrow i.succ)).2
    have found := arrow?_mark (arrow 0) (startsBlank_of_trimmed trimmed)
    rw [written, first, split_of_arrow found, behind, List.ofFn_succ]
    simp

theorem pair_ofFn (left : Fin (n + 1) → Text) :
    pair (left 0) (List.ofFn fun i => (arrow i, left i.succ)) =
      List.ofFn fun i => ⟨left i.castSucc, arrow i, left i.succ⟩ := by
  induction n with
  | zero => rfl
  | succ n ih =>
    rw [List.ofFn_succ, List.ofFn_succ, pair, ih (fun i => arrow i.succ) fun i => left i.succ]
    rfl

theorem links_written : links (written operand arrow) =
    List.ofFn fun i => ⟨(operand i.castSucc).text, arrow i, (operand i.succ).text⟩ := by
  have ends (one : Operand) : Text.trim one.text = one.text := one.trimmed
  rw [links, split_written]
  simp only [List.map_ofFn, Function.comp_def, ends]
  exact pair_ofFn arrow fun i => (operand i).text

theorem edges_written : edges (written operand arrow) =
    List.ofFn fun i => (arrow i).between (operand i.castSucc).id (operand i.succ).id := by
  rw [edges, links_written, List.map_ofFn]
  congr
  funext i
  exact Operand.edge_between _ _ _

theorem reverse_ofFn {α : Type} (f : Fin n → α) :
    (List.ofFn f).reverse = List.ofFn fun i => f i.rev := by
  apply List.ext_getElem
  · simp
  · intro i inside also
    simp only [List.getElem_reverse, List.getElem_ofFn, List.length_ofFn]
    congr 1
    ext
    simp
    omega

end Chain

/-- Operands with an arrow between each two. -/
structure Route where
  length : Nat
  operand : Fin (length + 1) → Chain.Operand
  arrow : Fin length → Arrow

namespace Route

def line (route : Route) : Text := Chain.written route.operand route.arrow

/-- The same route from its last operand to its first, every arrow turned round. -/
def reverse (route : Route) : Route where
  length := route.length
  operand i := route.operand i.rev
  arrow i := (route.arrow i.rev).flip

/-- A line has one edge for each of its arrows, between the operands on both sides. The reversed
line has the same edges in reverse order. -/
theorem edges_reverse (route : Route) :
    (Chain.edges route.line = List.ofFn fun i =>
        (route.arrow i).between (route.operand i.castSucc).id (route.operand i.succ).id) ∧
      Chain.edges route.reverse.line = (Chain.edges route.line).reverse := by
  have there := Chain.edges_written route.operand route.arrow
  have back := Chain.edges_written route.reverse.operand route.reverse.arrow
  refine ⟨there, ?_⟩
  calc
    Chain.edges route.reverse.line
    _ = List.ofFn fun i : Fin route.length => (route.arrow i.rev).flip.between
          (route.operand i.castSucc.rev).id (route.operand i.succ.rev).id := back
    _ = List.ofFn fun i : Fin route.length => (route.arrow i.rev).between
          (route.operand i.rev.castSucc).id (route.operand i.rev.succ).id := by
      simp only [Fin.rev_castSucc, Fin.rev_succ, Arrow.between_flip]
    _ = (Chain.edges route.line).reverse := by
      rw [line, there, Chain.reverse_ofFn]

/-- An operand may begin with an arrow, and hold one without blanks. -/
theorem edges_reverse_of_stray : ∃ route : Route,
    route.line = "a > > b < c>d".toList ∧ route.reverse.line = "c>d > > b < a".toList ∧
      Chain.edges route.reverse.line = (Chain.edges route.line).reverse := by
  let first := Chain.Operand.ofPhrase ⟨"a".toList, by decide, rfl, by decide⟩ (by decide)
  let second := Chain.Operand.ofPhrase ⟨"> b".toList, by decide, rfl, by decide⟩ (by decide)
  let third := Chain.Operand.ofPhrase ⟨"c>d".toList, by decide, rfl, by decide⟩ (by decide)
  let route : Route := ⟨2, [first, second, third].get, [Arrow.forward, Arrow.backward].get⟩
  exact ⟨route, rfl, rfl, route.edges_reverse.2⟩

end Route

end Flowchart
