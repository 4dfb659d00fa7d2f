import SamdReference.JlinkFlash.CMakeCalls

/-!
# The places where a call may stand

The script and CMake go over the same characters and differ in what they keep in mind
on the way. A site is a place of the file with what both of them know there. The list
of the script and the deployments due are read off the same sites, so they can be
compared place by place.
-/

namespace JlinkFlash

open Scanning

structure Site where
  /-- The script searches the line for a call and has not matched one before this place. -/
  searched : Bool
  /-- The line is in the section and a command may start here. -/
  active : Bool
  /-- The line from here on. -/
  text : Text
  deriving DecidableEq

namespace Site

/-- The path of the call that the script takes from here. -/
def taken? (s : Site) : Option Text := if s.searched then matchAt s.text else none

/-- The path of the active call of the section that is here. -/
def wanted? (s : Site) : Option Text := if s.active then callPath? s.text else none

/-- What the script lists from here. -/
def listed? (s : Site) : Option Text := s.taken?.bind depName?

/-- What is due from here. -/
def due? (s : Site) : Option Text := s.wanted?.bind finalComponent?

/-- A path that the script reads as CMake does: no quote of the other kind or behind a
backslash is in it, and the variable can only be at its beginning. -/
def PlainPath (path : Text) : Prop :=
  path.all (fun c => !isQuote c) ∧ ¬listDir <:+: relative path

instance (path : Text) : Decidable (PlainPath path) :=
  inferInstanceAs (Decidable (_ ∧ _))

/-- The script takes a call from here exactly if it is due, and its path is plain. -/
def Right (s : Site) : Prop :=
  s.taken?.isSome = s.wanted?.isSome ∧ ∀ path ∈ s.wanted?, PlainPath path

instance (s : Site) : Decidable s.Right :=
  inferInstanceAs (Decidable (_ ∧ _))

end Site

/-- The places of a line, from left to right. -/
def lineSites (searched inSection : Bool) : Lexer → Text → List Site
  | _, [] => []
  | lx, c :: cs =>
      ⟨searched, inSection && lx.atCommand, c :: cs⟩ ::
        lineSites (searched && (matchAt (c :: cs)).isNone) inSection (lx.step c) cs

/-- The `in_deployments` of the loop of the script behind a line, as long as it runs. -/
def loopStep : Option Bool → Text → Option Bool
  | none, _ => none
  | some inDeployments, line =>
      if opens line then some true
      else if closes line then none
      else some inDeployments

/-- Where a line is in relation to the section. -/
inductive Part where
  | before
  | inside
  | after
  deriving DecidableEq

def Part.step : Part → Text → Part
  | .before, line => if opens line then .inside else .before
  | .inside, line => if closes line then .after else .inside
  | .after, _ => .after

/-- The places of a file, line by line. -/
def fileSites : Option Bool → Part → List (Lexer × Text) → List Site
  | _, _, [] => []
  | loop, part, (lx, line) :: rest =>
      lineSites (loop = some true ∧ ¬opens line ∧ ¬closes line)
          (part = .inside ∧ ¬closes line) lx line ++
        fileSites (loopStep loop line) (part.step line) rest

def sites (content : Text) : List Site :=
  fileSites (some false) .before (locate .init (splitLines content))

/-- The places where the script takes a call that is not due, leaves one that is, or
reads its path in another way. -/
def misread (content : Text) : List Site := (sites content).filter fun s => ¬s.Right

section Line

theorem lineSites_listed (searched inSection : Bool) (lx : Lexer) (line : Text) :
    (lineSites searched inSection lx line).filterMap Site.listed? =
      (if searched then (search matchAt line).bind depName? else none).toList := by
  induction line generalizing searched lx with
  | nil => cases searched <;> rfl
  | cons c cs ih =>
      rw [lineSites, List.filterMap_cons, ih, search]
      cases searched with
      | false => rfl
      | true =>
          cases here : matchAt (c :: cs) with
          | none => simp [Site.listed?, Site.taken?, here]
          | some path =>
              cases name : depName? path <;> simp [Site.listed?, Site.taken?, here, name]

theorem lineSites_due (searched inSection : Bool) (lx : Lexer) (line : Text) :
    (lineSites searched inSection lx line).filterMap Site.due? =
      if inSection then (activeCalls lx line).filterMap finalComponent? else [] := by
  induction line generalizing searched lx with
  | nil => cases inSection <;> rfl
  | cons c cs ih =>
      rw [lineSites, List.filterMap_cons, ih, activeCalls]
      cases inSection with
      | false => rfl
      | true =>
          cases start : lx.atCommand with
          | false => simp [Site.due?, Site.wanted?]
          | true =>
              cases call : callPath? (c :: cs) with
              | none => simp [Site.due?, Site.wanted?, call]
              | some path =>
                  cases name : finalComponent? path <;>
                    simp [Site.due?, Site.wanted?, call, name]

end Line

section Section

variable {lines : List (Lexer × Text)}

theorem fileSites_due_after (loop : Option Bool) :
    (fileSites loop .after lines).filterMap Site.due? = [] := by
  induction lines generalizing loop with
  | nil => rfl
  | cons l rest ih =>
      obtain ⟨lx, line⟩ := l
      rw [fileSites, List.filterMap_append, lineSites_due, Part.step, ih]
      rfl

theorem fileSites_due_inside (loop : Option Bool) :
    (fileSites loop .inside lines).filterMap Site.due? =
      ((lines.takeWhile fun l => !closes l.2).flatMap fun l =>
        activeCalls l.1 l.2).filterMap finalComponent? := by
  induction lines generalizing loop with
  | nil => rfl
  | cons l rest ih =>
      obtain ⟨lx, line⟩ := l
      rw [fileSites, List.filterMap_append, lineSites_due, Part.step, List.takeWhile_cons]
      by_cases closed : closes line
      · simp [closed, fileSites_due_after]
      · simp [closed, ih]

/-- The deployments due are what is due at the places of the file. -/
theorem fileSites_due (loop : Option Bool) :
    (fileSites loop .before lines).filterMap Site.due? = deploymentNames lines := by
  induction lines generalizing loop with
  | nil => rfl
  | cons l rest ih =>
      obtain ⟨lx, line⟩ := l
      rw [fileSites, List.filterMap_append, lineSites_due, Part.step]
      by_cases opened : opens line
      · simp [opened, fileSites_due_inside, deploymentNames, deploymentSection]
      · simp [opened, ih, deploymentNames, deploymentSection]

end Section

section Script

theorem fileSites_listed_left (part : Part) (lines : List (Lexer × Text)) :
    (fileSites none part lines).filterMap Site.listed? = [] := by
  induction lines generalizing part with
  | nil => rfl
  | cons l rest ih =>
      obtain ⟨lx, line⟩ := l
      rw [fileSites, List.filterMap_append, lineSites_listed, loopStep, ih]
      rfl

/-- The script lists what its loop takes at the places of the file. -/
theorem fileSites_listed (inDeployments : Bool) (part : Part) (lines : List (Lexer × Text)) :
    (fileSites (some inDeployments) part lines).filterMap Site.listed? =
      (scan inDeployments (lines.map Prod.snd)).1 := by
  induction lines generalizing inDeployments part with
  | nil => rfl
  | cons l rest ih =>
      obtain ⟨lx, line⟩ := l
      simp only [fileSites, List.filterMap_append, lineSites_listed, loopStep, List.map_cons,
        scan, opens_strip, closes_strip, extract?_strip]
      by_cases opened : opens line
      · simp [opened, ih]
      · by_cases closed : closes line
        · simp [opened, closed, fileSites_listed_left]
        · cases inDeployments <;> simp [opened, closed, ih]

theorem sites_listed (content : Text) :
    (sites content).filterMap Site.listed? = (scan false (splitLines content)).1 := by
  rw [sites, fileSites_listed, locate_lines]

theorem sites_due (content : Text) :
    (sites content).filterMap Site.due? = deploymentNames (locate .init (splitLines content)) :=
  fileSites_due (some false)

end Script

end JlinkFlash
