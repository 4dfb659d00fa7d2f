import SamdReference.JlinkFlash.FindDeployments

/-!
# The calls that CMake sees

What the flash script should list, stated from the language of the file it reads. A
lexer goes over the characters and knows at each of them whether a command can start
there: not inside a comment, a string or the arguments of another command. The
deployments are the active calls between the two marker lines.
-/

namespace JlinkFlash

open Scanning

/-- What the characters read so far are part of. -/
inductive Mode where
  | start
  | word
  | wordEscape
  | quoted
  | quotedEscape
  /-- Directly after a `#`. -/
  | hash
  | comment
  /-- After `[` and some `=`, behind a `#` or not. -/
  | opening (equals : Nat) (commented : Bool)
  /-- A bracket argument or comment, to be closed with as many `=`. -/
  | bracket (equals : Nat)
  /-- In it after `]` and some `=`. -/
  | closing (equals seen : Nat)
  deriving DecidableEq, Repr

/-- The mode, and how many parentheses are open. -/
structure Lexer where
  depth : Nat
  mode : Mode
  deriving DecidableEq, Repr

namespace Lexer

def init : Lexer := ⟨0, .start⟩

/-- A character outside strings, brackets and comments. -/
def bare (lx : Lexer) (c : Char) : Lexer :=
  if c = '#' then { lx with mode := .hash }
  else if c = '\x22' then { lx with mode := .quoted }
  else if c = '(' then ⟨lx.depth + 1, .start⟩
  else if c = ')' then ⟨lx.depth - 1, .start⟩
  else if c = '\\' then { lx with mode := .wordEscape }
  else if c = ' ' ∨ c = '\t' ∨ c = '\r' ∨ c = '\n' then { lx with mode := .start }
  else { lx with mode := .word }

/-- A character of a comment up to the end of its line. -/
def lineComment (lx : Lexer) (c : Char) : Lexer :=
  { lx with mode := if c = '\n' then .start else .comment }

def step (lx : Lexer) (c : Char) : Lexer :=
  match lx.mode with
  | .start => if c = '[' then { lx with mode := .opening 0 false } else lx.bare c
  | .word => lx.bare c
  | .wordEscape => { lx with mode := .word }
  | .quoted =>
      if c = '\x22' then { lx with mode := .start }
      else if c = '\\' then { lx with mode := .quotedEscape }
      else lx
  | .quotedEscape => { lx with mode := .quoted }
  | .hash => if c = '[' then { lx with mode := .opening 0 true } else lx.lineComment c
  | .comment => lx.lineComment c
  | .opening equals commented =>
      if c = '=' then { lx with mode := .opening (equals + 1) commented }
      else if c = '[' then { lx with mode := .bracket equals }
      -- No second bracket: this was a comment to the end of the line, or a word.
      else if commented then lx.lineComment c
      else lx.bare c
  | .bracket equals => if c = ']' then { lx with mode := .closing equals 0 } else lx
  | .closing equals seen =>
      if c = ']' then
        if seen = equals then { lx with mode := .start }
        else { lx with mode := .closing equals 0 }
      else if c = '=' then { lx with mode := .closing equals (seen + 1) }
      else { lx with mode := .bracket equals }

/-- A command of the file may start at the next character. -/
def atCommand (lx : Lexer) : Bool := lx.depth = 0 ∧ lx.mode = .start

end Lexer

def isBlank (c : Char) : Bool := c == ' ' || c == '\t' || c == '\r'

/-- The rest of a text after the command name. Names are not case-sensitive. -/
def commandName? (text : Text) : Option Text :=
  if (text.take addFprimeSubdirectory.length).map Char.toLower = addFprimeSubdirectory then
    some (text.drop addFprimeSubdirectory.length)
  else none

/-- The text up to a closing quote that no backslash precedes. -/
def quotedText (quote : Char) : Text → Option Text
  | [] => none
  | c :: cs =>
      if c = quote then some []
      else if c = '\\' then
        match cs with
        | [] => none
        | d :: ds => (quotedText quote ds).map fun text => c :: d :: text
      else (quotedText quote cs).map fun text => c :: text

/-- The path of a call at the beginning of a text, written on one line and in quotes. -/
def callPath? (text : Text) : Option Text := do
  let text ← commandName? text
  let text ← accept (· == '(') (text.dropWhile isBlank)
  match text.dropWhile isBlank with
  | [] => none
  | quote :: text => if isQuote quote then quotedText quote text else none

/-- A path without the directory of the file in front of it. -/
def relative (path : Text) : Text := (path.dropPrefix? listDir).getD path

/-- The final component of a path, unless slashes and dots are all there is. -/
def finalComponent? (path : Text) : Option Text :=
  ((pieces '/' (relative path)).filter (· ≠ ['.'])).getLast?

/-- The paths of the active calls on a line. -/
def activeCalls : Lexer → Text → List Text
  | _, [] => []
  | lx, c :: cs =>
      (if lx.atCommand then callPath? (c :: cs) else none).toList ++ activeCalls (lx.step c) cs

/-- Each line with the state of the lexer at its beginning. -/
def locate : Lexer → List Text → List (Lexer × Text)
  | _, [] => []
  | lx, line :: rest => (lx, line) :: locate (line.foldl Lexer.step lx) rest

def opens (line : Text) : Bool := deploymentsMarker <:+: line
def closes (line : Text) : Bool := deploymentsEnd <:+: line

/-- The lines after the first opening marker line and before the next closing one. -/
def deploymentSection (lines : List (Lexer × Text)) : List (Lexer × Text) :=
  ((lines.dropWhile fun l => !opens l.2).drop 1).takeWhile fun l => !closes l.2

/-- The final components of the paths of the active calls in the section. -/
def deploymentNames (lines : List (Lexer × Text)) : List Text :=
  ((deploymentSection lines).flatMap fun l => activeCalls l.1 l.2).filterMap finalComponent?

/-- The deployments of a file. -/
def activeDeployments (content : Text) : List Text :=
  (deploymentNames (locate .init (splitLines content))).insertionSort (· ≤ ·)

section Paths

theorem isSpace_of_isBlank {c : Char} (blank : isBlank c) : isSpace c := by
  simp only [isBlank, Bool.or_eq_true, beq_iff_eq] at blank
  rcases blank with (rfl | rfl) | rfl <;> rfl

theorem upTo_of_quotedText {quote : Char} (isquote : isQuote quote) {text path : Text}
    (read : quotedText quote text = some path) (plain : path.all fun c => !isQuote c) :
    upTo isQuote text = some path := by
  induction text using quotedText.induct quote generalizing path with
  | case1 => cases read
  | case2 cs =>
      rw [quotedText.eq_def] at read
      simp only [if_true, Option.some.injEq] at read
      rw [← read, upTo_cons, if_pos isquote]
  | case3 other =>
      rw [quotedText, if_neg other, if_pos rfl] at read
      cases read
  | case4 d ds other ih =>
      rw [quotedText, if_neg other, if_pos rfl, Option.map_eq_some_iff] at read
      obtain ⟨rest, read, rfl⟩ := read
      simp only [List.all_cons, Bool.and_eq_true, Bool.not_eq_true'] at plain
      obtain ⟨escape, escaped, plain⟩ := plain
      simp [upTo_cons, escape, escaped, ih read plain]
  | case5 c cs other escape ih =>
      rw [quotedText.eq_def] at read
      simp only [if_neg other, if_neg escape, Option.map_eq_some_iff] at read
      obtain ⟨rest, read, rfl⟩ := read
      rw [List.all_cons, Bool.and_eq_true, Bool.not_eq_true'] at plain
      simp [upTo_cons, plain.1, ih read plain.2]

theorem matchAt_of_callPath? {text path : Text} (name : addFprimeSubdirectory <+: text)
    (call : callPath? text = some path) (plain : path.all fun c => !isQuote c) :
    matchAt text = if path = [] then none else some path := by
  obtain ⟨args, rfl⟩ := name
  have drop : (addFprimeSubdirectory ++ args).dropPrefix? addFprimeSubdirectory = some args :=
    dropPrefix?_eq_some.mpr rfl
  have lower : commandName? (addFprimeSubdirectory ++ args) = some args := by
    have same : addFprimeSubdirectory.map Char.toLower = addFprimeSubdirectory := by decide
    simp [commandName?, same]
  simp only [callPath?, lower, Option.bind_eq_bind, Option.bind_some,
    Option.bind_eq_some_iff] at call
  obtain ⟨inner, parenthesis, call⟩ := call
  obtain ⟨c, isopen, here⟩ := accept_eq_some parenthesis
  have solid : isSpace c = false := by
    rw [beq_iff_eq.mp isopen]
    rfl
  have afterName : args.dropWhile isSpace = c :: inner :=
    dropWhile_eq_cons_of_imp (fun _ => isSpace_of_isBlank) here solid
  split at call
  case h_1 => cases call
  case h_2 quote rest here =>
    split at call
    case isFalse => cases call
    case isTrue isquote =>
      have afterOpen : inner.dropWhile isSpace = quote :: rest :=
        dropWhile_eq_cons_of_imp (fun _ => isSpace_of_isBlank) here (isSpace_of_isQuote isquote)
      have read := upTo_of_quotedText isquote call plain
      simp [matchAt, drop, afterName, afterOpen, accept, beq_iff_eq.mp isopen, isquote, read]

theorem pieces_remove_listDir {path : Text} (plain : ¬listDir <:+: relative path) :
    remove listDir path = relative path := by
  rw [relative] at plain ⊢
  cases front : path.dropPrefix? listDir with
  | none =>
      rw [front, Option.getD_none] at plain
      rw [Option.getD_none, remove_of_not_infix plain]
  | some rest =>
      rw [front, Option.getD_some] at plain
      rw [dropPrefix?_eq_some.mp front, remove_append (by decide), Option.getD_some,
        remove_of_not_infix plain]

/-- The script takes the final component of a path with the variable only in front. -/
theorem depName?_of_plain {path : Text} (plain : ¬listDir <:+: relative path) :
    depName? path = finalComponent? path := by
  rw [depName?, pieces_remove_listDir plain, pathName, pieces_strip, finalComponent?]
  cases last : ((pieces '/' (relative path)).filter (· ≠ ['.'])).getLast? with
  | none => rfl
  | some name =>
      have piece : name ∈ pieces '/' (relative path) :=
        (List.mem_filter.mp (List.mem_of_getLast? last)).1
      have nonempty : name ≠ [] := by
        simpa using (List.mem_filter.mp piece).2
      rw [Option.getD_some, if_neg nonempty]

end Paths

section Marks

theorem opens_strip (line : Text) : deploymentsMarker <:+: strip isSpace line ↔ opens line := by
  rw [infix_strip (by decide) (by decide), opens, decide_eq_true_iff]

theorem closes_strip (line : Text) : deploymentsEnd <:+: strip isSpace line ↔ closes line := by
  rw [infix_strip (by decide) (by decide), closes, decide_eq_true_iff]

theorem locate_lines (lx : Lexer) (lines : List Text) :
    (locate lx lines).map Prod.snd = lines := by
  induction lines generalizing lx with
  | nil => rfl
  | cons line rest ih => rw [locate, List.map_cons, ih]

end Marks

end JlinkFlash
