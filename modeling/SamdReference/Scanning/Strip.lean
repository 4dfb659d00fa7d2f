import Mathlib.Data.List.Basic
import Mathlib.Data.List.Infix
import Mathlib.Data.List.TakeWhile

/-!
# Searching a text whose ends do not matter

Line-oriented scripts strip a line first and search it afterwards. A search that never
starts at a blank and never reads past the last character it needs finds the same in
the stripped line as in the line itself.
-/

namespace Scanning

variable {α β : Type}

/-- Drop the blanks at both ends. -/
def strip (blank : α → Bool) (l : List α) : List α :=
  ((l.dropWhile blank).reverse.dropWhile blank).reverse

/-- The result of `f` at the first position where it has one. -/
def search (f : List α → Option β) : List α → Option β
  | [] => none
  | c :: cs => (f (c :: cs)).or (search f cs)

/-- What is found is found at the beginning of a suffix. -/
theorem exists_suffix_of_search {f : List α → Option β} {l : List α} {x : β}
    (found : search f l = some x) : ∃ rest, rest <:+ l ∧ f rest = some x := by
  induction l with
  | nil => cases found
  | cons c l ih =>
      rw [search, Option.or_eq_some_iff] at found
      rcases found with here | ⟨_, later⟩
      · exact ⟨c :: l, List.suffix_refl _, here⟩
      · obtain ⟨rest, suffix, matched⟩ := ih later
        exact ⟨rest, suffix.trans (List.suffix_cons c l), matched⟩

/-- Read one element. -/
def accept (q : α → Bool) : List α → Option (List α)
  | [] => none
  | c :: cs => if q c then some cs else none

/-- What stands before the first element that satisfies `q`, if there is one. -/
def upTo (q : α → Bool) (l : List α) : Option (List α) :=
  if l.any q then some (l.takeWhile fun c => !q c) else none

section Blanks

variable {blank : α → Bool}

/-- A text is its stripped form between two runs of blanks. -/
theorem strip_pads (blank : α → Bool) (l : List α) :
    ∃ a b, a.all blank ∧ b.all blank ∧ l = a ++ (strip blank l ++ b) := by
  refine ⟨l.takeWhile blank, ((l.dropWhile blank).reverse.takeWhile blank).reverse, ?_, ?_, ?_⟩
  · exact List.all_takeWhile
  · rw [List.all_reverse]
    exact List.all_takeWhile
  · rw [strip, ← List.reverse_append, List.takeWhile_append_dropWhile, List.reverse_reverse,
      List.takeWhile_append_dropWhile]

theorem strip_eq_self {l : List α} (solid : ∀ c ∈ l, blank c = false) : strip blank l = l := by
  have keeps : ∀ {m : List α}, (∀ c ∈ m, blank c = false) → m.dropWhile blank = m := by
    intro m solid
    cases m with
    | nil => rfl
    | cons c m => simp [solid c List.mem_cons_self]
  have reversed : ∀ c ∈ l.reverse, blank c = false := by simpa using solid
  rw [strip, keeps solid, keeps reversed, List.reverse_reverse]

theorem dropWhile_append_blanks (l : List α) {b : List α} (hb : b.all blank) :
    (l ++ b).dropWhile blank =
      if l.all blank then [] else l.dropWhile blank ++ b := by
  induction l with
  | nil => simpa [List.dropWhile_eq_nil_iff] using hb
  | cons c l ih =>
      rw [List.cons_append, List.dropWhile_cons, List.dropWhile_cons]
      cases h : blank c with
      | true => simp [h, ih]
      | false => simp [h]

/-- A needle that ends in no blank is not found in blanks appended to a text. -/
theorem infix_append_blanks {needle : List α} {x : α} (solid : blank x = false)
    {b : List α} (hb : b.all blank) (l : List α) :
    needle ++ [x] <:+: l ++ b ↔ needle ++ [x] <:+: l := by
  constructor
  · rintro ⟨pre, post, same⟩
    have split : l ++ b = (pre ++ needle) ++ x :: post := by simp [← same]
    rcases List.append_eq_append_iff.mp split with ⟨c, _, tail⟩ | ⟨c, head, tail⟩
    · have member : x ∈ b := by simp [tail]
      simp [List.all_eq_true.mp hb x member] at solid
    · cases c with
      | nil =>
          have here : x :: post = b := tail
          have member : x ∈ b := by simp [← here]
          simp [List.all_eq_true.mp hb x member] at solid
      | cons y c =>
          obtain ⟨rfl, _⟩ := List.cons.inj tail
          exact ⟨pre, c, by simp [head]⟩
  · intro found
    exact found.trans (List.prefix_append l b).isInfix

theorem infix_blanks_append {needle : List α} {x : α} (solid : blank x = false)
    {a : List α} (ha : a.all blank) (l : List α) :
    x :: needle <:+: a ++ l ↔ x :: needle <:+: l := by
  have blanks : a.reverse.all blank := by simpa using ha
  have flipped : needle.reverse ++ [x] <:+: l.reverse ++ a.reverse ↔
      needle.reverse ++ [x] <:+: l.reverse := infix_append_blanks solid blanks l.reverse
  rw [← List.reverse_cons, ← List.reverse_append, List.reverse_infix,
    List.reverse_infix] at flipped
  exact flipped

/-- A needle with no blank at its ends is in a text when it is in the stripped text. -/
theorem infix_strip {needle : List α} (first : needle.head?.all fun x => !blank x)
    (last : needle.getLast?.all fun x => !blank x) (l : List α) :
    needle <:+: strip blank l ↔ needle <:+: l := by
  obtain ⟨a, b, ha, hb, pads⟩ := strip_pads blank l
  cases needle with
  | nil => exact iff_of_true List.nil_infix List.nil_infix
  | cons x needle =>
      have solid : blank x = false := by simpa using first
      have front : x :: needle <:+: a ++ (strip blank l ++ b) ↔
          x :: needle <:+: strip blank l ++ b :=
        infix_blanks_append solid ha (strip blank l ++ b)
      rw [← pads] at front
      rw [front]
      obtain ⟨rest, y, shape⟩ : ∃ rest y, x :: needle = rest ++ [y] :=
        ⟨_, _, (List.dropLast_concat_getLast (List.cons_ne_nil x needle)).symm⟩
      rw [shape] at last ⊢
      have solid : blank y = false := by simpa using last
      exact (infix_append_blanks solid hb _).symm

/-- The search goes past blanks if no match starts at one. -/
theorem search_blanks_append {f : List α → Option β}
    (start : ∀ c cs, blank c → f (c :: cs) = none) {a : List α} (ha : a.all blank)
    (l : List α) : search f (a ++ l) = search f l := by
  induction a with
  | nil => rfl
  | cons c a ih =>
      rw [List.all_cons, Bool.and_eq_true] at ha
      rw [List.cons_append, search, start c (a ++ l) ha.1, Option.none_or, ih ha.2]

theorem search_append_blanks {f : List α → Option β}
    (start : ∀ c cs, blank c → f (c :: cs) = none)
    (stop : ∀ l b, b.all blank → f (l ++ b) = f l) {b : List α} (hb : b.all blank)
    (l : List α) : search f (l ++ b) = search f l := by
  induction l with
  | nil => simpa [search] using search_blanks_append start hb []
  | cons c l ih =>
      have here := stop (c :: l) b hb
      rw [List.cons_append] at here
      rw [List.cons_append, search, search, here, ih]

/-- Stripping a text first does not change what is found in it. -/
theorem search_strip {f : List α → Option β}
    (start : ∀ c cs, blank c → f (c :: cs) = none)
    (stop : ∀ l b, b.all blank → f (l ++ b) = f l) (l : List α) :
    search f (strip blank l) = search f l := by
  obtain ⟨a, b, ha, hb, pads⟩ := strip_pads blank l
  have whole := search_blanks_append start ha (strip blank l ++ b)
  rw [← pads] at whole
  rw [whole, search_append_blanks start stop hb]

end Blanks

section Readers

variable {blank : α → Bool}

theorem dropPrefix?_eq_some [BEq α] [LawfulBEq α] {word l rest : List α} :
    l.dropPrefix? word = some rest ↔ l = word ++ rest := by
  simp [List.dropPrefix?_eq_some_iff]

theorem dropPrefix?_eq_none [BEq α] [LawfulBEq α] {word l : List α} :
    l.dropPrefix? word = none ↔ ¬word <+: l := by
  rw [Option.eq_none_iff_forall_ne_some]
  constructor
  · rintro absent ⟨rest, same⟩
    exact absent rest (dropPrefix?_eq_some.mpr same.symm)
  · intro absent rest found
    exact absent ⟨rest, (dropPrefix?_eq_some.mp found).symm⟩

theorem dropPrefix?_append_blanks [BEq α] [LawfulBEq α] {word : List α}
    (solid : ∀ x ∈ word, blank x = false) (l : List α) {b : List α} (hb : b.all blank) :
    (l ++ b).dropPrefix? word = (l.dropPrefix? word).map (· ++ b) := by
  induction word generalizing l with
  | nil => simp
  | cons x word ih =>
      have rest : ∀ y ∈ word, blank y = false := fun y member =>
        solid y (List.mem_cons_of_mem x member)
      cases l with
      | nil =>
          cases b with
          | nil => rfl
          | cons c b =>
              rw [List.all_cons, Bool.and_eq_true] at hb
              have other : c ≠ x := by
                rintro rfl
                simp [solid c List.mem_cons_self] at hb
              simp [List.dropPrefix?, other]
      | cons c l =>
          by_cases same : c = x
          · simpa [List.dropPrefix?, same] using ih rest l
          · simp [List.dropPrefix?, same]

theorem accept_append_blanks (q : α → Bool) (l : List α) {b : List α} (hb : b.all blank) :
    accept q ((l ++ b).dropWhile blank) =
      (accept q (l.dropWhile blank)).map (· ++ b) := by
  rw [dropWhile_append_blanks l hb]
  by_cases empty : l.all blank
  · have none : l.dropWhile blank = [] := by
      simpa [List.dropWhile_eq_nil_iff] using empty
    rw [if_pos empty, none]
    rfl
  · rw [if_neg empty]
    cases h : l.dropWhile blank with
    | nil =>
        have all : l.all blank := List.all_eq_true.mpr (List.dropWhile_eq_nil_iff.mp h)
        exact absurd all empty
    | cons c rest => by_cases ok : q c <;> simp [accept, ok]

/-- Dropping more kinds of elements stops at the same one if it is of neither kind. -/
theorem dropWhile_eq_cons_of_imp {few many : α → Bool} (wider : ∀ c, few c → many c)
    {l rest : List α} {x : α} (stops : l.dropWhile few = x :: rest) (solid : many x = false) :
    l.dropWhile many = x :: rest := by
  induction l with
  | nil => cases stops
  | cons c l ih =>
      rw [List.dropWhile_cons] at stops
      cases dropped : few c with
      | true =>
          rw [if_pos dropped] at stops
          rw [List.dropWhile_cons, if_pos (wider c dropped), ih stops]
      | false =>
          rw [dropped, if_neg Bool.false_ne_true] at stops
          cases stops
          rw [List.dropWhile_cons, solid, if_neg Bool.false_ne_true]

theorem accept_eq_some {q : α → Bool} {l rest : List α} (accepted : accept q l = some rest) :
    ∃ x, q x ∧ l = x :: rest := by
  cases l with
  | nil => cases accepted
  | cons x l =>
      rw [accept, Option.ite_none_right_eq_some, Option.some.injEq] at accepted
      exact ⟨x, accepted.1, by rw [accepted.2]⟩

theorem upTo_cons (q : α → Bool) (c : α) (cs : List α) :
    upTo q (c :: cs) = if q c then some [] else (upTo q cs).map (c :: ·) := by
  cases stops : q c with
  | true => simp [upTo, stops]
  | false => by_cases later : cs.any q <;> simp [upTo, stops, later]

theorem takeWhile_append_of_any {q : α → Bool} {l : List α} (found : l.any q) (b : List α) :
    (l ++ b).takeWhile (fun c => !q c) = l.takeWhile fun c => !q c := by
  induction l with
  | nil => cases found
  | cons c l ih =>
      rw [List.cons_append, List.takeWhile_cons, List.takeWhile_cons]
      cases h : q c with
      | true => rfl
      | false =>
          rw [List.any_cons, h, Bool.false_or] at found
          simp [ih found]

theorem upTo_append_blanks {q : α → Bool} (solid : ∀ x, q x → blank x = false)
    (l : List α) {b : List α} (hb : b.all blank) : upTo q (l ++ b) = upTo q l := by
  have quiet : b.any q = false := by
    rw [List.any_eq_false]
    intro x member found
    have blanked := List.all_eq_true.mp hb x member
    rw [solid x found] at blanked
    cases blanked
  by_cases found : l.any q
  · simp [upTo, found, takeWhile_append_of_any found b]
  · simp [upTo, found, quiet]

end Readers

end Scanning
