import SamdReference.JlinkFlash.Sites

/-!
# When the listed deployments are the active ones

Where the script takes a call exactly when it is due and the path is plain, it lists
what is due. So the two lists can differ only by what comes from the other places, and
without any such place they are equal. Where there are some they may still be equal, as a
name that is wrongly listed can be that of a call that is missed.
-/

namespace JlinkFlash

open Scanning

namespace Site

variable {s : Site} {path : Text}

theorem taken?_eq_some :
    s.taken? = some path ↔ s.searched = true ∧ matchAt s.text = some path := by
  rw [taken?, Option.ite_none_right_eq_some]

theorem wanted?_eq_some :
    s.wanted? = some path ↔ s.active = true ∧ callPath? s.text = some path := by
  rw [wanted?, Option.ite_none_right_eq_some]

/-- A call that the script takes and that is due is taken with its path, if that is
plain. -/
theorem taken_path {path' : Text} (taken : s.taken? = some path) (due : s.wanted? = some path')
    (plain : PlainPath path') : path = path' := by
  have found := (taken?_eq_some.mp taken).2
  have call := (wanted?_eq_some.mp due).2
  have read := matchAt_of_callPath? (isPrefix_of_matchAt found) call plain.1
  rw [found] at read
  split at read
  case isTrue => cases read
  case isFalse => exact Option.some.inj read

/-- Where the script takes exactly what is due, it lists exactly what is due. -/
theorem Right.listed?_eq (right : s.Right) : s.listed? = s.due? := by
  obtain ⟨same, plain⟩ := right
  rw [listed?, due?]
  cases due : s.wanted? with
  | none =>
      rw [due, Option.isSome_none, Option.isSome_eq_false_iff, Option.isNone_iff_eq_none] at same
      rw [same]
      rfl
  | some path' =>
      rw [due, Option.isSome_some, Option.isSome_iff_exists] at same
      obtain ⟨path, taken⟩ := same
      obtain rfl := taken_path taken due (plain path' due)
      rw [taken, Option.bind_some, Option.bind_some, depName?_of_plain (plain path due).2]

end Site

section Comparison

theorem findDeployments_eq (content : Text) :
    findDeployments (some (readable content)) =
      ((sites content).filterMap Site.listed?).insertionSort (· ≤ ·) := by
  rw [sites_listed]
  rfl

theorem activeDeployments_eq (content : Text) :
    activeDeployments content =
      ((sites content).filterMap Site.due?).insertionSort (· ≤ ·) := by
  rw [sites_due]
  rfl

/-- As both lists are sorted they are equal if the misread places contribute the same names
to both, each as often. -/
theorem findDeployments_eq_iff (content : Text) :
    findDeployments (some (readable content)) = activeDeployments content ↔
      ((misread content).filterMap Site.listed?).Perm
        ((misread content).filterMap Site.due?) := by
  have elsewhere : ∀ s ∈ sites content, decide s.Right = true → s.listed? = s.due? :=
    fun _ _ right => (of_decide_eq_true right).listed?_eq
  rw [findDeployments_eq, activeDeployments_eq, insertionSort_eq_iff,
    filterMap_perm_iff elsewhere]
  simp [misread]

/-- If no place of the file is misread the script lists the active deployments. -/
theorem find_deployments_of_all_read {content : Text} (read : misread content = []) :
    findDeployments (some (readable content)) = activeDeployments content := by
  rw [findDeployments_eq_iff, read]
  exact .refl _

/-- A section with one call, as the repository writes it. -/
def oneCall : Text :=
  ("# === Deployments === #\n" ++
    "add_fprime_subdirectory(\x22$\x7bCMAKE_CURRENT_LIST_DIR\x7d/CmdTlmTest/\x22)\n" ++
    "# === /Deployments === #\n").toList

theorem find_deployments_of_all_read_oneCall :
    findDeployments (some (readable oneCall)) = activeDeployments oneCall ∧
      activeDeployments oneCall = ["CmdTlmTest".toList] :=
  ⟨find_deployments_of_all_read (by decide +kernel), by decide +kernel⟩

/-- A call that is switched off by a comment, and the same call in capitals, which the
script misses. -/
def capitalCall : Text :=
  ("# === Deployments === #\n# add_fprime_subdirectory(\x22A\x22)\n" ++
    "ADD_FPRIME_SUBDIRECTORY(\x22A\x22)\n# === /Deployments === #\n").toList

/-- Misread places need not make a difference. -/
example : misread capitalCall ≠ [] ∧
    findDeployments (some (readable capitalCall)) = activeDeployments capitalCall := by
  decide +kernel

/-- A section with a call that is switched off by a comment. -/
def disabledCall : Text :=
  ("# === Deployments === #\n# add_fprime_subdirectory(\x22Old\x22)\n" ++
    "# === /Deployments === #\n").toList

/-- The script lists `Old`, which CMake does not add. -/
theorem find_deployments_lists_disabled_call :
    findDeployments (some (readable disabledCall)) ≠ activeDeployments disabledCall := by
  decide

end Comparison

end JlinkFlash
