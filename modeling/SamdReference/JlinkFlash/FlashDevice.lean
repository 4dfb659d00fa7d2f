import Mathlib.Logic.Function.Basic
import SamdReference.JlinkFlash.Template
import SamdReference.Raising.Rules

/-!
# Flashing through JLinkExe

`create_jlink_script` renders the command template into a temporary file and
`flash_device` runs JLinkExe on it. What the machine answers is a parameter; the state is
the temporary files, the starts of JLinkExe and the log. Exceptions are told apart only as
far as the script does. Each function comes with what it can do.
-/

namespace JlinkFlash

open Raising

/-- What was raised: `FileNotFoundError`, another `Exception`, or something that only a bare
`except` catches. -/
inductive Raised where
  | fileNotFound
  | exception
  | interrupt
  deriving DecidableEq

/-- The messages of the log, hints and debugging apart. -/
inductive Message where
  | templateNotFound
  | connecting
  | flashSuccessful
  | cannotConnect
  | failedWith (returncode : Int)
  | successUnclear
  | jlinkNotFound
  | flashFailed
  | noDeployments
  | invalidSelection
  | noToolchain
  | noBinFile
  deriving DecidableEq

/-- The message is logged with `logger.error`. -/
def Message.isError : Message → Bool
  | .connecting | .flashSuccessful | .successUnclear | .invalidSelection => false
  | _ => true

/-- A start of `JLinkExe -device device -CommandFile path`, with what the file contained. -/
structure Invocation where
  device : Text
  script : Text
  deriving DecidableEq

/-- What the machine answers. -/
structure Host where
  /-- Opening and reading `flash.jlink`. -/
  template : Except Raised Template
  /-- The path of a new empty file. -/
  mkstemp : Except Raised Text
  fdopen : Except Raised Unit
  write : Except Raised Unit
  /-- What a failed `write` left in the file. -/
  residue : Text
  /-- Reading the script again to log it. -/
  reopen : Except Raised Unit
  /-- Return code and output of JLinkExe, which leaves the temporary files alone. -/
  jlinkExe : Invocation → Except Raised (Int × Text)
  unlink : Except Raised Unit

/-- Temporary files with their contents, the starts of JLinkExe, and the log. -/
structure Desk where
  files : Text → Option Text
  starts : List Invocation
  log : List Message

namespace Desk

variable (desk : Desk)

def put (path : Text) (content : Option Text) : Desk :=
  { desk with files := Function.update desk.files path content }

def start (invocation : Invocation) : Desk :=
  { desk with starts := desk.starts ++ [invocation] }

def report (message : Message) : Desk := { desk with log := desk.log ++ [message] }

@[simp] theorem put_put (path : Text) (a b : Option Text) :
    (desk.put path a).put path b = desk.put path b := by
  simp only [put, Function.update_idem]

@[simp] theorem put_files_self (path : Text) (content : Option Text) :
    (desk.put path content).files path = content := Function.update_self ..

@[simp] theorem start_log (invocation : Invocation) :
    (desk.start invocation).log = desk.log := rfl

@[simp] theorem report_log (message : Message) :
    (desk.report message).log = desk.log ++ [message] := rfl

end Desk

abbrev Script := EStateM Raised Desk

def ask {α : Type} : Except Raised α → Script α
  | .ok a => pure a
  | .error raised => throw raised

def say (message : Message) : Script Unit := modify (Desk.report · message)

def setFile (path : Text) (content : Option Text) : Script Unit := modify (Desk.put · path content)

def getDeviceName (toolchain : Text) : Text :=
  ([("samd21g17".toList, "ATSAMD21G17A".toList)].lookup toolchain).getD "ATSAMD21G17A".toList

def getFlashAddress (deviceName : Text) : Text :=
  ([("ATSAMD21G17A".toList, "0x0000".toList)].lookup deviceName).getD "0x0000".toList

def loadTemplate (H : Host) : Script Template := do
  try
    ask H.template
  catch
    | .fileNotFound => do
        say .templateNotFound
        throw .fileNotFound
    | raised => throw raised

def createJlinkScript (H : Host) (binFile flashAddr : Text) : Script Text := do
  let template ← loadTemplate H
  match template.format (jlinkFields binFile flashAddr) with
  | none => throw .exception
  | some rendered =>
    let scriptPath ← ask H.mkstemp
    setFile scriptPath (some [])
    -- The handler closes the descriptor that `fdopen` did not take and raises again.
    ask H.fdopen
    match H.write with
    | .ok () =>
        setFile scriptPath (some rendered)
        return scriptPath
    | .error _ =>
        setFile scriptPath (some H.residue)
        -- The `with` has closed the descriptor, and closing it again raises `OSError`.
        throw .exception

def downloading : Text := "Downloading file".toList
def cannotConnect : Text := "Cannot connect to target".toList

/-- What the return code and the output of JLinkExe amount to. -/
def judge (returncode : Int) (output : Text) : Script Int := do
  if downloading <:+: output ∧ returncode = 0 then
    say .flashSuccessful
    return 0
  else if cannotConnect <:+: output then
    say .cannotConnect
    return 1
  else if returncode ≠ 0 then
    say (.failedWith returncode)
    return returncode
  else
    say .successUnclear
    return 0

/-- Run JLinkExe and judge its answer. -/
def startJlink (H : Host) (scriptPath device : Text) : Script Int := do
  say .connecting
  let invocation : Invocation := ⟨device, ((← get).files scriptPath).getD []⟩
  modify (Desk.start · invocation)
  let (returncode, output) ← ask (H.jlinkExe invocation)
  judge returncode output

/-- The body of `flash_device` from where `script_path` is set. -/
def runJlink (H : Host) (scriptPath device : Text) (verbose : Bool) : Script Int := do
  if verbose then
    ask H.reopen
  startJlink H scriptPath device

/-- The `except` clauses of `flash_device`. -/
def excepts : Raised → Script Int
  | .fileNotFound => do
      say .jlinkNotFound
      return 1
  | .exception => do
      say .flashFailed
      return 1
  | .interrupt => throw .interrupt

/-- The `finally` clause of `flash_device`. -/
def cleanUp (H : Host) (scriptPath : Text) : Script Unit := do
  if ((← get).files scriptPath).isSome then
    match H.unlink with
    | .ok () => setFile scriptPath none
    | .error _ => return

/-- The `finally` clause has nothing to do until `create_jlink_script` has returned. -/
def flashDevice (H : Host) (binFile device : Text) (verbose : Bool) : Script Int := do
  try
    let scriptPath ← createJlinkScript H binFile (getFlashAddress device)
    try
      (try runJlink H scriptPath device verbose catch raised => excepts raised)
    finally
      cleanUp H scriptPath
  catch raised => excepts raised

section Create

variable {H : Host} {binFile flashAddr scriptPath script : Text}

/-- The command script is rendered. -/
def Rendered (H : Host) (binFile flashAddr script : Text) : Prop :=
  ∃ template, H.template = .ok template ∧
    template.format (jlinkFields binFile flashAddr) = some script

/-- The temporary script gets written. -/
structure Written (H : Host) (binFile flashAddr scriptPath script : Text) : Prop where
  rendered : Rendered H binFile flashAddr script
  created : H.mkstemp = .ok scriptPath
  opened : H.fdopen = .ok ()
  wrote : H.write = .ok ()

/-- A temporary file is created that the script does not get written to. -/
structure Stranded (H : Host) (binFile flashAddr scriptPath : Text) : Prop where
  rendered : ∃ script, Rendered H binFile flashAddr script
  created : H.mkstemp = .ok scriptPath
  failed : H.fdopen ≠ .ok () ∨ H.write ≠ .ok ()

theorem loadTemplate_ok {template : Template} (found : H.template = .ok template) (desk : Desk) :
    loadTemplate H desk = .ok template desk := by
  rw [loadTemplate, found]
  exact tryCatch_ok _ rfl

theorem create_written (written : Written H binFile flashAddr scriptPath script) (desk : Desk) :
    createJlinkScript H binFile flashAddr desk =
      .ok scriptPath (desk.put scriptPath (some script)) := by
  obtain ⟨⟨template, found, rendered⟩, created, opened, wrote⟩ := written
  rw [createJlinkScript, bind_ok _ (loadTemplate_ok found desk), rendered, created, opened, wrote]
  change EStateM.Result.ok scriptPath
    ((desk.put scriptPath (some [])).put scriptPath (some script)) = _
  rw [Desk.put_put]

/-- Where creating the script ends if it is not written: an exception, with what was logged,
after which there is at most the one file it was not written to. -/
inductive Unwritten (H : Host) (binFile flashAddr : Text) (desk : Desk) : Desk → Prop where
  | noTemplate (missing : H.template = .error .fileNotFound) :
      Unwritten H binFile flashAddr desk (desk.report .templateNotFound)
  | nothing (absent : ∀ scriptPath, ¬Stranded H binFile flashAddr scriptPath) :
      Unwritten H binFile flashAddr desk desk
  | stranded {scriptPath : Text} (content : Text)
      (left : Stranded H binFile flashAddr scriptPath) :
      Unwritten H binFile flashAddr desk (desk.put scriptPath (some content))

theorem create_unwritten
    (unwritten : ∀ scriptPath script, ¬Written H binFile flashAddr scriptPath script)
    (desk : Desk) :
    ∃ raised next, createJlinkScript H binFile flashAddr desk = .error raised next ∧
      Unwritten H binFile flashAddr desk next := by
  cases found : H.template with
  | error raised =>
      have absent : ∀ scriptPath, ¬Stranded H binFile flashAddr scriptPath := by
        rintro scriptPath ⟨⟨_, _, found', _⟩, _, _⟩
        cases found.symm.trans found'
      rw [createJlinkScript, loadTemplate, found]
      cases raised with
      | fileNotFound => exact ⟨_, _, bind_error _ (tryCatch_error _ rfl), .noTemplate found⟩
      | _ => exact ⟨_, _, bind_error _ (tryCatch_error _ rfl), .nothing absent⟩
  | ok template =>
      rw [createJlinkScript, bind_ok _ (loadTemplate_ok found desk)]
      cases rendered : template.format (jlinkFields binFile flashAddr) with
      | none =>
          refine ⟨.exception, desk, rfl, .nothing ?_⟩
          rintro scriptPath ⟨⟨_, _, found', rendered'⟩, _, _⟩
          cases found.symm.trans found'
          cases rendered.symm.trans rendered'
      | some script =>
          have here : Rendered H binFile flashAddr script := ⟨template, found, rendered⟩
          cases created : H.mkstemp with
          | error raised =>
              refine ⟨raised, desk, rfl, .nothing ?_⟩
              rintro scriptPath ⟨_, created', _⟩
              cases created.symm.trans created'
          | ok scriptPath =>
              cases opened : H.fdopen with
              | error raised =>
                  refine ⟨raised, _, rfl, .stranded [] ⟨⟨script, here⟩, created, .inl ?_⟩⟩
                  exact fun open' => nomatch opened.symm.trans open'
              | ok =>
                  cases wrote : H.write with
                  | ok => exact absurd ⟨here, created, opened, wrote⟩ (unwritten scriptPath script)
                  | error raised =>
                      refine ⟨.exception, desk.put scriptPath (some H.residue), ?_,
                        .stranded H.residue ⟨⟨script, here⟩, created, .inr ?_⟩⟩
                      · rw [← Desk.put_put desk scriptPath (some [])]
                        rfl
                      · exact fun wrote' => nomatch wrote.symm.trans wrote'

end Create

/-- The desk where a part of the script ended. -/
def endDesk {α : Type} : EStateM.Result Raised Desk α → Desk
  | .ok _ next => next
  | .error _ next => next

section Flash

variable {H : Host} {binFile device scriptPath script : Text} {verbose : Bool} {before : Desk}

theorem excepts_cases (raised : Raised) (before : Desk) :
    (∃ message : Message, message.isError = true ∧
      excepts raised before = .ok 1 (before.report message)) ∨
    excepts raised before = .error .interrupt before := by
  cases raised with
  | fileNotFound => exact .inl ⟨.jlinkNotFound, rfl, rfl⟩
  | exception => exact .inl ⟨.flashFailed, rfl, rfl⟩
  | interrupt => exact .inr rfl

theorem endDesk_excepts (raised : Raised) (next : Desk) :
    (endDesk (excepts raised next)).files = next.files ∧
      (endDesk (excepts raised next)).starts = next.starts := by
  rcases excepts_cases raised next with ⟨_, _, caught⟩ | uncaught
  · rw [caught]
    exact ⟨rfl, rfl⟩
  · rw [uncaught]
    exact ⟨rfl, rfl⟩

/-- The output mentions a download, or no failure to connect. -/
def Unobjected (output : Text) : Prop := downloading <:+: output ∨ ¬cannotConnect <:+: output

/-- The answer is judged by a code and one message. The code is zero exactly for the return
code zero with an output that is not objected to, the message tells of success exactly if
a download was mentioned as well, and it is an error for every other code. -/
theorem judge_cases (returncode : Int) (output : Text) (before : Desk) :
    ∃ code message, judge returncode output before = .ok code (before.report message) ∧
      (code = 0 ↔ returncode = 0 ∧ Unobjected output) ∧
      (message = .flashSuccessful ↔ returncode = 0 ∧ downloading <:+: output) ∧
      (message.isError = true ↔ code ≠ 0) := by
  rw [judge]
  split
  case isTrue done =>
    obtain ⟨download, zero⟩ := done
    exact ⟨0, .flashSuccessful, rfl, iff_of_true rfl ⟨zero, .inl download⟩,
      iff_of_true rfl ⟨zero, download⟩, by decide⟩
  case isFalse notDone =>
    have unconfirmed : ¬(returncode = 0 ∧ downloading <:+: output) :=
      fun ⟨zero, download⟩ => notDone ⟨download, zero⟩
    split
    case isTrue refused =>
      refine ⟨1, .cannotConnect, rfl, ?_, iff_of_false (by decide) unconfirmed, by decide⟩
      refine iff_of_false (by decide) ?_
      rintro ⟨zero, done | reached⟩
      · exact notDone ⟨done, zero⟩
      · exact reached refused
    case isFalse reached =>
      split
      case isTrue failed =>
        refine ⟨returncode, .failedWith returncode, rfl, ?_,
          iff_of_false Message.noConfusion unconfirmed, iff_of_true rfl failed⟩
        exact iff_of_false failed fun succeeds => failed succeeds.1
      case isFalse zero =>
        refine ⟨0, .successUnclear, rfl, ?_, iff_of_false (by decide) unconfirmed, by decide⟩
        exact iff_of_true rfl ⟨not_not.mp zero, .inr reached⟩

/-- The script is removed if that is possible. -/
def Host.removed (H : Host) (scriptPath : Text) (before : Desk) : Desk :=
  match H.unlink with
  | .ok () => before.put scriptPath none
  | .error _ => before

theorem cleanUp_eq (here : (before.files scriptPath).isSome) :
    cleanUp H scriptPath before = .ok () (H.removed scriptPath before) := by
  have found : (get : Script Desk) before = .ok before before := rfl
  rw [cleanUp, bind_ok _ found, if_pos here, Host.removed]
  cases H.unlink <;> rfl

end Flash
end JlinkFlash
