import Mathlib.Data.List.Perm.Basic
import Mathlib.Data.List.Sort
import SamdReference.Scanning.Strip

/-!
# Taking a text apart

Deleting the occurrences of a word, cutting at a separator, and comparing two lists
read off the same places of a text.
-/

namespace Scanning

variable {α β : Type}

/-- Delete the occurrences of a word from left to right. `skip` elements of the
current occurrence are still to be deleted. -/
def removeFrom [DecidableEq α] (word : List α) : Nat → List α → List α
  | _, [] => []
  | skip + 1, _ :: cs => removeFrom word skip cs
  | 0, c :: cs =>
      if word <+: c :: cs then removeFrom word (word.length - 1) cs
      else c :: removeFrom word 0 cs

def remove [DecidableEq α] (word l : List α) : List α := removeFrom word 0 l

/-- The maximal pieces of a text without the separator. -/
def pieces [DecidableEq α] (sep : α) (l : List α) : List (List α) := (l.splitOn sep).filter (· ≠ [])

section Remove

variable [DecidableEq α] {word : List α}

theorem remove_of_not_infix {l : List α} (absent : ¬word <:+: l) : remove word l = l := by
  induction l with
  | nil => rfl
  | cons c l ih =>
      have here : ¬word <+: c :: l := fun found => absent found.isInfix
      have later : ¬word <:+: l := fun found => absent (found.trans (List.suffix_cons c l).isInfix)
      rw [remove, removeFrom, if_neg here]
      exact congrArg (c :: ·) (ih later)

theorem removeFrom_append (a l : List α) :
    removeFrom word a.length (a ++ l) = removeFrom word 0 l := by
  induction a with
  | nil => rfl
  | cons c a ih => exact ih

/-- An occurrence at the front is deleted. -/
theorem remove_append (nonempty : word ≠ []) (l : List α) :
    remove word (word ++ l) = remove word l := by
  obtain ⟨c, rest, rfl⟩ := List.exists_cons_of_ne_nil nonempty
  have occurs : c :: rest <+: c :: (rest ++ l) := List.prefix_append (c :: rest) l
  rw [remove, List.cons_append, removeFrom, if_pos occurs]
  exact removeFrom_append rest l

end Remove

section Pieces

variable [DecidableEq α] {sep : α}

theorem pieces_append_sep (a b : List α) :
    pieces sep (a ++ sep :: b) = pieces sep a ++ pieces sep b := by
  rw [pieces, List.splitOn_eq_splitOnP, List.splitOnP_append_cons a b (by simp),
    List.filter_append, ← List.splitOn_eq_splitOnP, ← List.splitOn_eq_splitOnP]
  rfl

theorem pieces_nil : pieces sep [] = [] := by
  simp [pieces]

theorem pieces_seps_append {a : List α} (seps : a.all (· == sep)) (l : List α) :
    pieces sep (a ++ l) = pieces sep l := by
  induction a with
  | nil => rfl
  | cons c a ih =>
      rw [List.all_cons, Bool.and_eq_true, beq_iff_eq] at seps
      obtain ⟨rfl, seps⟩ := seps
      have cut : pieces c ([] ++ c :: (a ++ l)) = pieces c [] ++ pieces c (a ++ l) :=
        pieces_append_sep [] (a ++ l)
      rw [pieces_nil, List.nil_append, List.nil_append] at cut
      rw [List.cons_append, cut, ih seps]

theorem pieces_append_seps {b : List α} (seps : b.all (· == sep)) (l : List α) :
    pieces sep (l ++ b) = pieces sep l := by
  cases b with
  | nil => rw [List.append_nil]
  | cons c b =>
      rw [List.all_cons, Bool.and_eq_true, beq_iff_eq] at seps
      obtain ⟨rfl, seps⟩ := seps
      have rest := pieces_seps_append seps []
      rw [List.append_nil, pieces_nil] at rest
      rw [pieces_append_sep, rest, List.append_nil]

/-- Separators at the ends are not part of any piece. -/
theorem pieces_strip (l : List α) : pieces sep (strip (· == sep) l) = pieces sep l := by
  obtain ⟨a, b, ha, hb, pads⟩ := strip_pads (· == sep) l
  have whole := pieces_seps_append ha (strip (· == sep) l ++ b)
  rw [← pads] at whole
  rw [whole, pieces_append_seps hb]

end Pieces

/-- Two lists read off the same places are alike exactly if they are alike on the
places where the readings differ. -/
theorem filterMap_perm_iff {f g : α → Option β} {p : α → Bool} {l : List α}
    (same : ∀ x ∈ l, p x = true → f x = g x) :
    (l.filterMap f).Perm (l.filterMap g) ↔
      ((l.filter fun x => !p x).filterMap f).Perm ((l.filter fun x => !p x).filterMap g) := by
  have split : ∀ h : α → Option β, (l.filterMap h).Perm
      ((l.filter p).filterMap h ++ (l.filter fun x => !p x).filterMap h) := by
    intro h
    rw [← List.filterMap_append]
    exact (List.filter_append_perm p l).symm.filterMap h
  have common : (l.filter p).filterMap f = (l.filter p).filterMap g := by
    apply List.filterMap_congr
    intro x member
    rw [List.mem_filter] at member
    exact same x member.1 member.2
  rw [(split f).congr_left, (split g).congr_right, common, List.perm_append_left_iff]

/-- Two lists are sorted alike exactly if one is a reordering of the other. -/
theorem insertionSort_eq_iff [LinearOrder α] {a b : List α} :
    a.insertionSort (· ≤ ·) = b.insertionSort (· ≤ ·) ↔ a.Perm b := by
  constructor
  · intro same
    have left := List.perm_insertionSort (· ≤ ·) a
    rw [same] at left
    exact left.symm.trans (List.perm_insertionSort (· ≤ ·) b)
  · intro perm
    apply List.Perm.eq_of_sortedLE List.sortedLE_insertionSort List.sortedLE_insertionSort
    exact (List.perm_insertionSort _ a).trans (perm.trans (List.perm_insertionSort _ b).symm)

end Scanning
