import SamdReference.JlinkFlash.FindDeployments
import SamdReference.Scanning.Numerals

/-!
# Choosing a deployment

Without a deployment on its command line the flash script lists those it found, numbered
from 1, and reads lines until one selects a deployment, by number or by name.
-/

namespace JlinkFlash

open Scanning

/-- How the prompt is left. A text of digits that `int` does not convert raises. -/
inductive Selection where
  | selected (deployment : Text)
  | aborted
  | raised
  deriving DecidableEq

section Prompt

variable (N : Numerals) (deployments : List Text)

/-- The loop of the prompt over the lines typed before the input ends or is interrupted,
with the number of warnings. -/
def selectDeployment : List Text → Selection × Nat
  | [] => (.aborted, 0)
  | line :: rest =>
      let choice := strip isSpace line
      let again := ((selectDeployment rest).1, (selectDeployment rest).2 + 1)
      if N.allDigits choice then
        match N.number? choice with
        | none => (.raised, 0)
        | some number =>
            let idx : Int := number - 1
            if 0 ≤ idx ∧ idx < deployments.length then
              (.selected (deployments.getD idx.toNat []), 0)
            else again
      else if choice ∈ deployments then (.selected choice, 0)
      else again

/-- The line gives the number of the deployment in the list. -/
def Numbers (line deployment : Text) : Prop :=
  N.allDigits (strip isSpace line) = true ∧
    ∃ i, N.number? (strip isSpace line) = some (i + 1) ∧ deployments[i]? = some deployment

/-- The line names the deployment. Digits alone name none, even where one is called so. -/
def Names (line deployment : Text) : Prop :=
  strip isSpace line = deployment ∧ deployment ∈ deployments ∧ N.allDigits deployment = false

def Selects (line deployment : Text) : Prop :=
  Numbers N deployments line deployment ∨ Names N deployments line deployment

/-- The line makes `int` raise. -/
def Unreadable (line : Text) : Prop :=
  N.allDigits (strip isSpace line) = true ∧ N.number? (strip isSpace line) = none

/-- The line is answered with a warning. -/
def Invalid (line : Text) : Prop :=
  ¬Unreadable N line ∧ ∀ deployment, ¬Selects N deployments line deployment

end Prompt

section Lines

variable {N : Numerals} {deployments : List Text} {line deployment : Text} (rest : List Text)

theorem selectDeployment_of_selects (selects : Selects N deployments line deployment) :
    selectDeployment N deployments (line :: rest) = (.selected deployment, 0) := by
  rw [selectDeployment]
  rcases selects with ⟨digits, i, number, listed⟩ | ⟨rfl, listed, name⟩
  · have bound : i < deployments.length := (List.getElem?_eq_some_iff.mp listed).1
    have idx : ((i + 1 : Nat) : Int) - 1 = i := by omega
    simp only [digits, if_true, number, idx, Int.toNat_natCast, List.getD_eq_getElem?_getD,
      listed, Option.getD_some]
    exact if_pos ⟨Int.natCast_nonneg i, Int.ofNat_lt.mpr bound⟩
  · simp only [name, Bool.false_eq_true, if_false]
    exact if_pos listed

theorem selectDeployment_of_unreadable (unreadable : Unreadable N line) :
    selectDeployment N deployments (line :: rest) = (.raised, 0) := by
  obtain ⟨digits, number⟩ := unreadable
  rw [selectDeployment]
  simp only [digits, if_true, number]

theorem selectDeployment_of_invalid (invalid : Invalid N deployments line) :
    selectDeployment N deployments (line :: rest) =
      ((selectDeployment N deployments rest).1, (selectDeployment N deployments rest).2 + 1) := by
  obtain ⟨readable, selects⟩ := invalid
  rw [selectDeployment]
  cases digits : N.allDigits (strip isSpace line) with
  | false =>
      have unlisted : strip isSpace line ∉ deployments := by
        intro listed
        exact selects (strip isSpace line) (.inr ⟨rfl, listed, digits⟩)
      simp only [Bool.false_eq_true, if_false, unlisted]
  | true =>
      cases number : N.number? (strip isSpace line) with
      | none => exact absurd ⟨digits, number⟩ readable
      | some n =>
          simp only [if_true]
          refine if_neg ?_
          rintro ⟨positive, bound⟩
          obtain ⟨i, rfl⟩ : ∃ i, n = i + 1 := ⟨n - 1, by omega⟩
          have inside : i < deployments.length := by omega
          exact selects deployments[i]
            (.inl ⟨digits, i, number, List.getElem?_eq_getElem inside⟩)

/-- Invalid lines are answered with a warning each and change nothing else. -/
theorem selectDeployment_skips {before : List Text}
    (invalid : ∀ line ∈ before, Invalid N deployments line) :
    selectDeployment N deployments (before ++ rest) =
      ((selectDeployment N deployments rest).1,
        (selectDeployment N deployments rest).2 + before.length) := by
  induction before with
  | nil => rfl
  | cons line before ih =>
      have first := invalid line List.mem_cons_self
      have later := ih fun l member => invalid l (List.mem_cons_of_mem line member)
      rw [List.cons_append, selectDeployment_of_invalid (before ++ rest) first, later]
      simp only [List.length_cons, Prod.mk.injEq, true_and]
      omega

/-- How a prompt goes: invalid lines to the end, or some of them and then one that selects
a deployment or makes it raise. -/
theorem selectDeployment_cases (N : Numerals) (deployments lines : List Text) :
    ((∀ line ∈ lines, Invalid N deployments line) ∧
      selectDeployment N deployments lines = (.aborted, lines.length)) ∨
    ∃ before line after, lines = before ++ line :: after ∧
      (∀ l ∈ before, Invalid N deployments l) ∧
      ((∃ deployment, Selects N deployments line deployment ∧
        selectDeployment N deployments lines = (.selected deployment, before.length)) ∨
      (Unreadable N line ∧ selectDeployment N deployments lines = (.raised, before.length))) := by
  induction lines with
  | nil => exact .inl ⟨List.forall_mem_nil _, rfl⟩
  | cons line lines ih =>
      by_cases invalid : Invalid N deployments line
      · have skip := selectDeployment_of_invalid lines invalid
        rcases ih with ⟨all, rest⟩ | ⟨before, last, after, rfl, skipped, ends⟩
        · refine .inl ⟨List.forall_mem_cons.mpr ⟨invalid, all⟩, ?_⟩
          rw [skip, rest, List.length_cons]
        · refine .inr ⟨line :: before, last, after, rfl,
            List.forall_mem_cons.mpr ⟨invalid, skipped⟩, ?_⟩
          rcases ends with ⟨deployment, selects, rest⟩ | ⟨unreadable, rest⟩
          · refine .inl ⟨deployment, selects, ?_⟩
            rw [skip, rest, List.length_cons]
          · refine .inr ⟨unreadable, ?_⟩
            rw [skip, rest, List.length_cons]
      · refine .inr ⟨[], line, lines, rfl, List.forall_mem_nil _, ?_⟩
        simp only [Invalid, not_and_or, not_not, not_forall] at invalid
        rcases invalid with unreadable | ⟨deployment, selects⟩
        · exact .inr ⟨unreadable, selectDeployment_of_unreadable lines unreadable⟩
        · exact .inl ⟨deployment, selects, selectDeployment_of_selects lines selects⟩

theorem listed_of_selects (selects : Selects N deployments line deployment) :
    deployment ∈ deployments := by
  rcases selects with ⟨_, _, _, listed⟩ | ⟨_, listed, _⟩
  · exact List.mem_of_getElem? listed
  · exact listed

/-- Only a listed deployment gets selected. -/
theorem listed_of_selected {lines : List Text}
    (selected : (selectDeployment N deployments lines).1 = .selected deployment) :
    deployment ∈ deployments := by
  rcases selectDeployment_cases N deployments lines with ⟨_, ended⟩ |
    ⟨_, _, _, _, _, ⟨found, selects, ended⟩ | ⟨_, ended⟩⟩
  · rw [ended] at selected
    cases selected
  · rw [ended] at selected
    cases selected
    exact listed_of_selects selects
  · rw [ended] at selected
    cases selected

end Lines

theorem isSpace_of_isDigit {c : Char} (digit : c.isDigit = true) : isSpace c = false := by
  have range : 0x30 ≤ c.toNat ∧ c.toNat ≤ 0x39 := by
    simpa [Char.isDigit, UInt32.le_iff_toNat_le] using digit
  simp [isSpace]
  omega

/-- What is printed beside a listed deployment selects it. -/
theorem selects_of_listed {N : Numerals} {deployments : List Text} {i : Nat} {deployment : Text}
    (listed : deployments[i]? = some deployment)
    (short : N.accepts (Nat.toDigits 10 (i + 1)) = true) :
    Selects N deployments (Nat.toDigits 10 (i + 1)) deployment := by
  have bare : strip isSpace (Nat.toDigits 10 (i + 1)) = Nat.toDigits 10 (i + 1) := by
    apply strip_eq_self
    intro c member
    exact isSpace_of_isDigit (Nat.isDigit_of_mem_toDigits (by decide) (by decide) member)
  left
  rw [Numbers, bare]
  exact ⟨N.allDigits_toDigits (i + 1), i, N.number?_toDigits short, listed⟩

section Outcomes

variable (N : Numerals) (deployments lines : List Text)

theorem selected_iff (deployment : Text) (warnings : Nat) :
    selectDeployment N deployments lines = (.selected deployment, warnings) ↔
      ∃ before line after, lines = before ++ line :: after ∧ before.length = warnings ∧
        (∀ l ∈ before, Invalid N deployments l) ∧ Selects N deployments line deployment := by
  constructor
  · intro selected
    rcases selectDeployment_cases N deployments lines with ⟨_, ended⟩ |
      ⟨before, line, after, split, skipped, ⟨found, selects, ended⟩ | ⟨_, ended⟩⟩
    · cases ended.symm.trans selected
    · cases ended.symm.trans selected
      exact ⟨before, line, after, split, rfl, skipped, selects⟩
    · cases ended.symm.trans selected
  · rintro ⟨before, line, after, rfl, rfl, skipped, selects⟩
    rw [selectDeployment_skips _ skipped, selectDeployment_of_selects after selects,
      Nat.zero_add]

theorem aborted_iff :
    (selectDeployment N deployments lines).1 = .aborted ↔
      ∀ line ∈ lines, Invalid N deployments line := by
  constructor
  · intro aborted
    rcases selectDeployment_cases N deployments lines with ⟨invalid, _⟩ |
      ⟨_, _, _, _, _, ⟨_, _, ended⟩ | ⟨_, ended⟩⟩
    · exact invalid
    · rw [ended] at aborted
      cases aborted
    · rw [ended] at aborted
      cases aborted
  · intro invalid
    have skipped := selectDeployment_skips [] invalid
    rw [List.append_nil] at skipped
    rw [skipped, selectDeployment]

theorem raised_iff :
    (selectDeployment N deployments lines).1 = .raised ↔
      ∃ before line after, lines = before ++ line :: after ∧
        (∀ l ∈ before, Invalid N deployments l) ∧ Unreadable N line := by
  constructor
  · intro raised
    rcases selectDeployment_cases N deployments lines with ⟨_, ended⟩ |
      ⟨before, line, after, split, skipped, ⟨_, _, ended⟩ | ⟨unreadable, _⟩⟩
    · rw [ended] at raised
      cases raised
    · rw [ended] at raised
      cases raised
    · exact ⟨before, line, after, split, skipped, unreadable⟩
  · rintro ⟨before, line, after, rfl, skipped, unreadable⟩
    rw [selectDeployment_skips _ skipped, selectDeployment_of_unreadable after unreadable]

end Outcomes

/-- For every list of deployments and every input: the prompt selects a deployment exactly
when some line gives its number or names it, where digits count as a number only, and the
lines before it are all invalid, with one warning for each of them. It is aborted exactly
when all lines are invalid, it raises exactly at a line of digits that `int` does not
convert, and what it selects is in the list. Moreover the number printed beside a
deployment selects it if it has no more digits than `int` converts, whatever was typed
before without ending the prompt. -/
theorem prompt_selects (N : Numerals) (deployments lines : List Text) :
    (∀ deployment warnings,
      selectDeployment N deployments lines = (.selected deployment, warnings) ↔
        ∃ before line after, lines = before ++ line :: after ∧ before.length = warnings ∧
          (∀ l ∈ before, Invalid N deployments l) ∧ Selects N deployments line deployment) ∧
    ((selectDeployment N deployments lines).1 = .aborted ↔
      ∀ line ∈ lines, Invalid N deployments line) ∧
    ((selectDeployment N deployments lines).1 = .raised ↔
      ∃ before line after, lines = before ++ line :: after ∧
        (∀ l ∈ before, Invalid N deployments l) ∧ Unreadable N line) ∧
    (∀ deployment, (selectDeployment N deployments lines).1 = .selected deployment →
      deployment ∈ deployments) ∧
    ((∀ line ∈ lines, Invalid N deployments line) →
      ∀ i deployment rest, deployments[i]? = some deployment →
        N.accepts (Nat.toDigits 10 (i + 1)) = true →
        selectDeployment N deployments (lines ++ Nat.toDigits 10 (i + 1) :: rest) =
          (.selected deployment, lines.length)) := by
  refine ⟨selected_iff N deployments lines, aborted_iff N deployments lines,
    raised_iff N deployments lines, fun _ => listed_of_selected, ?_⟩
  intro invalid i deployment rest listed short
  rw [selectDeployment_skips _ invalid,
    selectDeployment_of_selects rest (selects_of_listed listed short), Nat.zero_add]

end JlinkFlash
