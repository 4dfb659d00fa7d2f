import Mathlib.Data.List.Basic
import Mathlib.InformationTheory.Coding.UniquelyDecodable

/-!
# Words that end where they say

A code is prefix-free if none of its words goes on as another. So is every code whose
words say in a head of fixed length how long they are. The words of such a code can be
written one after the other with nothing between them.
-/

namespace Framing

open InformationTheory

variable {α β : Type} {S : Set (List α)}

/-- No word of the code begins another. -/
def PrefixFree (S : Set (List α)) : Prop := ∀ u ∈ S, ∀ v ∈ S, u <+: v → u = v

/-- The first word of a stream and what follows it are determined. -/
theorem PrefixFree.append_inj (h : PrefixFree S) {u v a b : List α} (hu : u ∈ S) (hv : v ∈ S)
    (same : u ++ a = v ++ b) : u = v ∧ a = b := by
  have first : u <+: u ++ a := List.prefix_append u a
  have second : v <+: u ++ a := same ▸ List.prefix_append v b
  obtain rfl : u = v := by
    rcases List.prefix_or_prefix_of_prefix first second with begins | begins
    · exact h u hu v hv begins
    · exact (h v hv u hu begins).symm
  exact ⟨rfl, List.append_cancel_left same⟩

theorem PrefixFree.uniquelyDecodable (h : PrefixFree S) (nonempty : [] ∉ S) :
    UniquelyDecodable S := by
  intro first
  induction first with
  | nil =>
      intro second _ words same
      cases second with
      | nil => rfl
      | cons v second =>
          obtain ⟨rfl, _⟩ := List.append_eq_nil_iff.mp same.symm
          exact absurd (words [] List.mem_cons_self) nonempty
  | cons u first ih =>
      intro second words words' same
      cases second with
      | nil =>
          obtain ⟨rfl, _⟩ := List.append_eq_nil_iff.mp same
          exact absurd (words [] List.mem_cons_self) nonempty
      | cons v second =>
          rw [List.forall_mem_cons] at words words'
          obtain ⟨rfl, rest⟩ := h.append_inj words.1 words'.1 same
          rw [ih second words.2 words'.2 rest]

/-- It is enough that words with the same head are equally long. -/
theorem prefixFree_of_head {n : Nat} (long : ∀ w ∈ S, n ≤ w.length)
    (told : ∀ u ∈ S, ∀ v ∈ S, u.take n = v.take n → u.length = v.length) : PrefixFree S := by
  rintro u hu v hv ⟨rest, rfl⟩
  have head : u.take n = (u ++ rest).take n :=
    (List.take_append_of_le_length (long u hu)).symm
  have length := told u hu (u ++ rest) hv head
  rw [List.length_append] at length
  obtain rfl : rest = [] := List.eq_nil_of_length_eq_zero (by omega)
  exact (List.append_nil u).symm

/-- Messages with different words of such a code are read back off the stream of words. -/
theorem flatMap_injective {encode : β → List α} (injective : Function.Injective encode)
    (code : UniquelyDecodable (Set.range encode)) :
    Function.Injective fun messages : List β => messages.flatMap encode := by
  intro first second same
  have words : ∀ messages : List β, ∀ w ∈ messages.map encode, w ∈ Set.range encode := by
    intro messages w member
    obtain ⟨message, _, rfl⟩ := List.mem_map.mp member
    exact ⟨message, rfl⟩
  simp only [List.flatMap_def] at same
  exact List.map_injective_iff.mpr injective (code _ _ (words first) (words second) same)

end Framing
