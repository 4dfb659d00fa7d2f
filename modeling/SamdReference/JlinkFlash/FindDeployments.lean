import Mathlib.Data.Char
import Mathlib.Data.List.Lex
import Mathlib.Data.List.Sort
import SamdReference.Scanning.Pieces

/-!
# Deployments listed for flashing

`find_deployments` of the flash script reads the root `CMakeLists.txt` line by line and
lists the directory names of the `add_fprime_subdirectory` calls between two marker
comments. A text is a list of code points, as a Python string is.
-/

namespace JlinkFlash

open Scanning

abbrev Text := List Char

/-- `str.isspace`, which is also the `\s` of a pattern. -/
def isSpace (c : Char) : Bool :=
  (0x09 ≤ c.toNat && c.toNat ≤ 0x0D) || (0x1C ≤ c.toNat && c.toNat ≤ 0x20) ||
    c.toNat == 0x85 || c.toNat == 0xA0 || c.toNat == 0x1680 ||
    (0x2000 ≤ c.toNat && c.toNat ≤ 0x200A) || c.toNat == 0x2028 || c.toNat == 0x2029 ||
    c.toNat == 0x202F || c.toNat == 0x205F || c.toNat == 0x3000

/-- A double or a single quote. -/
def isQuote (c : Char) : Bool := c == '\x22' || c == '\x27'

def deploymentsMarker : Text := "=== Deployments ===".toList
def deploymentsEnd : Text := "=== /Deployments ===".toList
def addFprimeSubdirectory : Text := "add_fprime_subdirectory".toList

/-- The CMake variable for the directory of the file, and a slash. -/
def listDir : Text := "$\x7bCMAKE_CURRENT_LIST_DIR\x7d/".toList

/-- The character ends a line, given what follows it. A file opened in text mode ends
lines at a line feed, a carriage return, or both in this order. -/
def endsLine (c : Char) (rest : Text) : Bool :=
  c == '\n' || (c == '\r' && rest.head? != some '\n')

/-- The lines of a file, each with the characters that end it. -/
def splitLines : Text → List Text
  | [] => []
  | c :: cs =>
      if endsLine c cs then [c] :: splitLines cs
      else
        match splitLines cs with
        | [] => [[c]]
        | line :: rest => (c :: line) :: rest

/-- What iterating over the opened file gives: the lines up to an exception, if one is
raised before the end. -/
structure Reading where
  lines : List Text
  fails : Bool

/-- The file with a content that can be read and decoded. -/
def readable (content : Text) : Reading := ⟨splitLines content, false⟩

/-- Group 1 of `add_fprime_subdirectory\s*\(\s*["']([^"']+)["']` matched at the beginning
of a text. Each repetition ends at a character it excludes, so no other match exists. -/
def matchAt (text : Text) : Option Text := do
  let text ← text.dropPrefix? addFprimeSubdirectory
  let text ← accept (· == '(') (text.dropWhile isSpace)
  let text ← accept isQuote (text.dropWhile isSpace)
  let path ← upTo isQuote text
  if path = [] then none else some path

/-- `Path(path).name`: the last part that is not a dot, or nothing. -/
def pathName (path : Text) : Text :=
  ((pieces '/' path).filter (· ≠ ['.'])).getLast?.getD []

/-- The directory name a matched path stands for, if it is not empty. -/
def depName? (path : Text) : Option Text :=
  let depPath := remove listDir path
  let depPath := strip (· == '/') depPath
  let depName := pathName depPath
  if depName = [] then none else some depName

/-- What the call on a line of the section adds to the list. -/
def extract? (line : Text) : Option Text :=
  if addFprimeSubdirectory <:+: line then (search matchAt line).bind depName? else none

/-- The loop over the lines: the names found, and whether it was left by its `break`. -/
def scan : Bool → List Text → List Text × Bool
  | _, [] => ([], false)
  | inDeployments, line :: rest =>
      let line := strip isSpace line
      if deploymentsMarker <:+: line then scan true rest
      else if deploymentsEnd <:+: line then ([], true)
      else
        let found := if inDeployments then (extract? line).toList else []
        let (more, stopped) := scan inDeployments rest
        (found ++ more, stopped)

/-- The names found in the root `CMakeLists.txt`, if it exists. When reading it raises
an exception, those found until then are returned as they are. -/
def findDeployments (cmakeFile : Option Reading) : List Text :=
  match cmakeFile with
  | none => []
  | some file =>
      let (deployments, stopped) := scan false file.lines
      if file.fails ∧ stopped = false then deployments
      else deployments.insertionSort (· ≤ ·)

section Matching

theorem isSpace_of_isQuote {c : Char} (quote : isQuote c) : isSpace c = false := by
  simp only [isQuote, Bool.or_eq_true, beq_iff_eq] at quote
  rcases quote with rfl | rfl <;> rfl

theorem matchAt_append_blanks (text : Text) {b : Text} (hb : b.all isSpace) :
    matchAt (text ++ b) = matchAt text := by
  have letters : addFprimeSubdirectory.all (fun c => !isSpace c) = true := by decide
  have name : ∀ c ∈ addFprimeSubdirectory, isSpace c = false := by simpa using letters
  rw [matchAt, matchAt, dropPrefix?_append_blanks name text hb]
  cases text.dropPrefix? addFprimeSubdirectory with
  | none => rfl
  | some text =>
      simp only [Option.map_some, Option.bind_eq_bind, Option.bind_some,
        accept_append_blanks _ text hb]
      cases accept (· == '(') (text.dropWhile isSpace) with
      | none => rfl
      | some text =>
          simp only [Option.map_some, Option.bind_some, accept_append_blanks _ text hb]
          cases accept isQuote (text.dropWhile isSpace) with
          | none => rfl
          | some text =>
              simp only [Option.map_some, Option.bind_some]
              rw [upTo_append_blanks (fun _ => isSpace_of_isQuote) text hb]

theorem isPrefix_of_matchAt {text path : Text} (found : matchAt text = some path) :
    addFprimeSubdirectory <+: text := by
  by_contra absent
  rw [matchAt, dropPrefix?_eq_none.mpr absent] at found
  cases found

theorem matchAt_of_isSpace (c : Char) (cs : Text) (space : isSpace c) :
    matchAt (c :: cs) = none := by
  apply Option.eq_none_iff_forall_ne_some.mpr
  rintro path found
  have first : c = 'a' := (List.cons_prefix_cons.mp (isPrefix_of_matchAt found)).1.symm
  subst first
  cases space

theorem extract?_strip (line : Text) :
    extract? (strip isSpace line) = (search matchAt line).bind depName? := by
  have whole := search_strip matchAt_of_isSpace (fun l b hb => matchAt_append_blanks l hb) line
  rw [extract?, whole]
  split
  case isTrue => rfl
  case isFalse absent =>
    cases found : search matchAt line with
    | none => rfl
    | some path =>
        rw [← whole] at found
        obtain ⟨rest, suffix, here⟩ := exists_suffix_of_search found
        exact absurd ((isPrefix_of_matchAt here).isInfix.trans suffix.isInfix) absent

end Matching

end JlinkFlash
