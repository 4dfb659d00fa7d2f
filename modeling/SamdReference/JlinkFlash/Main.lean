import SamdReference.JlinkFlash.FlashRuns
import SamdReference.JlinkFlash.Selection

/-!
# The flash script

`main` picks a deployment and a toolchain from the command line or from the project, finds
the binary built for them and flashes it. It is taken up where the command line has been
parsed. The project and the person at the prompt are parameters as the machine is.
-/

namespace JlinkFlash

open Raising Scanning

/-- The parsed command line. -/
structure Arguments where
  deployment : Option Text
  toolchain : Option Text
  device : Option Text
  verbose : Bool

/-- What `configparser` makes of a file: its sections by name, their options by name, and
what looking an option up gives. -/
abbrev Config := Text → Option (Text → Option (Except Raised Text))

/-- What `main` reads: the root `CMakeLists.txt` and `settings.ini` if they exist, which
files of the project exist, and the lines typed. Looking for a file may raise. -/
structure Project where
  cmakeFile : Except Raised (Option Reading)
  settings : Except Raised (Option Config)
  exists? : Text → Except Raised Bool
  /-- A path of the project in full. -/
  path : Text → Text
  typed : List Text

def getDefaultToolchain (P : Project) : Except Raised (Option Text) := do
  match ← P.settings with
  | none => return none
  | some config =>
      match config "fprime".toList with
      | none => return none
      | some options =>
          match options "default_toolchain".toList with
          | none => return none
          | some value => return some (← value)

/-- An argument counts if it is there and not empty. -/
def given? (argument : Option Text) : Option Text := argument.filter (· ≠ [])

def binPatterns (deployment toolchain : Text) : List Text :=
  ["build-fprime-automatic-".toList ++ toolchain ++ "/bin/".toList ++ toolchain ++ "/".toList ++
      deployment ++ ".elf.bin".toList,
    "build-artifacts/".toList ++ toolchain ++ "/".toList ++ deployment ++ "/bin/".toList ++
      deployment ++ ".elf.bin".toList]

/-- The first of the patterns whose file exists. -/
def firstExisting (P : Project) : List Text → Except Raised (Option Text)
  | [] => return none
  | pattern :: rest => do
      if ← P.exists? pattern then
        return some (P.path pattern)
      firstExisting P rest

def findBinFile (P : Project) (deployment toolchain : Text) : Except Raised (Option Text) :=
  firstExisting P (binPatterns deployment toolchain)

section Main

variable (N : Numerals) (P : Project) (H : Host) (args : Arguments)

/-- The deployment, unless there is none to choose or the prompt is aborted. -/
def chooseDeployment : Script (Option Text) :=
  match given? args.deployment with
  | some deployment => return some deployment
  | none => do
      let deployments := findDeployments (← ask P.cmakeFile)
      if deployments = [] then
        say .noDeployments
        return none
      let (selection, warnings) := selectDeployment N deployments P.typed
      modify fun desk => (List.replicate warnings Message.invalidSelection).foldl .report desk
      match selection with
      | .selected deployment => return some deployment
      | .aborted => return none
      | .raised => throw .exception

/-- `args.toolchain or get_default_toolchain(project_root)`. -/
def chooseToolchain : Script (Option Text) :=
  match given? args.toolchain with
  | some toolchain => return some toolchain
  | none => do
      let toolchain ← ask (getDefaultToolchain P)
      return given? toolchain

def deviceFor (toolchain : Text) : Text := (given? args.device).getD (getDeviceName toolchain)

/-- The end of `main`, once deployment and toolchain are known. -/
def flashBuild (deployment toolchain : Text) : Script Int := do
  match ← ask (findBinFile P deployment toolchain) with
  | none =>
      say .noBinFile
      return 1
  | some binFile => flashDevice H binFile (deviceFor args toolchain) args.verbose

def main : Script Int := do
  match ← chooseDeployment N P args with
  | none => return 1
  | some deployment =>
    match ← chooseToolchain P args with
    | none =>
        say .noToolchain
        return 1
    | some toolchain => flashBuild P H args deployment toolchain

/-- The deployment is named on the command line or selected at the prompt. -/
def Chosen (deployment : Text) : Prop :=
  given? args.deployment = some deployment ∨
    (given? args.deployment = none ∧ ∃ cmakeFile, P.cmakeFile = .ok cmakeFile ∧
      (selectDeployment N (findDeployments cmakeFile) P.typed).1 = .selected deployment)

/-- The toolchain is named on the command line or in the settings. -/
def Configured (toolchain : Text) : Prop :=
  given? args.toolchain = some toolchain ∨
    (given? args.toolchain = none ∧ ∃ setting, getDefaultToolchain P = .ok setting ∧
      given? setting = some toolchain)

/-- What the script picks: a deployment, a toolchain and the binary built from them. -/
structure Picks (deployment toolchain binFile : Text) : Prop where
  chosen : Chosen N P args deployment
  configured : Configured P args toolchain
  found : findBinFile P deployment toolchain = .ok (some binFile)

end Main

/-- Neither a temporary file nor a start of JLinkExe. -/
def Untouched (before next : Desk) : Prop :=
  next.files = before.files ∧ next.starts = before.starts

section Choices

variable {N : Numerals} {P : Project} {H : Host} {args : Arguments} {before : Desk}

theorem Untouched.refl (before : Desk) : Untouched before before := ⟨rfl, rfl⟩

theorem Untouched.trans {next last : Desk} (first : Untouched before next)
    (second : Untouched next last) : Untouched before last :=
  ⟨second.1.trans first.1, second.2.trans first.2⟩

theorem untouched_reports (messages : List Message) (before : Desk) :
    Untouched before (messages.foldl .report before) := by
  induction messages generalizing before with
  | nil => exact .refl before
  | cons message messages ih => exact Untouched.trans ⟨rfl, rfl⟩ (ih (before.report message))

/-- A choice ends with what is chosen, or without any and then nothing is. -/
def Ends {α : Type} (choice : Script (Option α)) (Is : α → Prop) (before : Desk) : Prop :=
  ∃ next, Untouched before next ∧
    ((∃ value, choice before = .ok (some value) next ∧ Is value) ∨
      ((choice before = .ok none next ∨ ∃ raised, choice before = .error raised next) ∧
        ∀ value, ¬Is value))

/-- The prompt ends with a listed deployment, or without any. -/
theorem prompt_ends {cmakeFile : Option Reading} (named : given? args.deployment = none)
    (read : P.cmakeFile = .ok cmakeFile) (before : Desk) :
    Ends (chooseDeployment N P args) (Chosen N P args) before := by
  have prompted : ∀ deployment, Chosen N P args deployment →
      (selectDeployment N (findDeployments cmakeFile) P.typed).1 = .selected deployment := by
    rintro deployment (named' | ⟨_, _, read', selected⟩)
    · cases named.symm.trans named'
    · cases read.symm.trans read'
      exact selected
  have asked : ask P.cmakeFile before = .ok cmakeFile before := by
    rw [read]
    rfl
  rw [Ends, chooseDeployment, named]
  simp only [bind_ok _ asked]
  by_cases empty : findDeployments cmakeFile = []
  · refine ⟨before.report .noDeployments, ⟨rfl, rfl⟩, .inr ⟨.inl ?_, ?_⟩⟩
    · simp only [empty, if_true]
      rfl
    · intro deployment chosen
      have listed := listed_of_selected (prompted deployment chosen)
      simp [empty] at listed
  · simp only [empty, if_false]
    cases outcome : selectDeployment N (findDeployments cmakeFile) P.typed with
    | mk selection warnings =>
        rw [outcome] at prompted
        refine ⟨_, untouched_reports (List.replicate warnings .invalidSelection) before, ?_⟩
        cases selection with
        | selected deployment =>
            refine .inl ⟨deployment, rfl, .inr ⟨named, cmakeFile, read, ?_⟩⟩
            rw [outcome]
        | aborted =>
            refine .inr ⟨.inl rfl, ?_⟩
            exact fun deployment chosen => nomatch prompted deployment chosen
        | raised =>
            refine .inr ⟨.inr ⟨.exception, rfl⟩, ?_⟩
            exact fun deployment chosen => nomatch prompted deployment chosen

theorem chooseDeployment_ends (before : Desk) :
    Ends (chooseDeployment N P args) (Chosen N P args) before := by
  cases named : given? args.deployment with
  | some deployment =>
      rw [Ends, chooseDeployment, named]
      exact ⟨before, .refl before, .inl ⟨deployment, rfl, .inl named⟩⟩
  | none =>
      cases read : P.cmakeFile with
      | ok cmakeFile => exact prompt_ends named read before
      | error raised =>
          have asked : ask P.cmakeFile before = .error raised before := by
            rw [read]
            rfl
          rw [Ends, chooseDeployment, named]
          refine ⟨before, .refl before, .inr ⟨.inr ⟨raised, bind_error _ asked⟩, ?_⟩⟩
          rintro deployment (named' | ⟨_, _, read', _⟩)
          · cases named.symm.trans named'
          · cases read.symm.trans read'

theorem chooseToolchain_ends (before : Desk) :
    Ends (chooseToolchain P args) (Configured P args) before := by
  rw [Ends, chooseToolchain]
  refine ⟨before, .refl before, ?_⟩
  cases named : given? args.toolchain with
  | some toolchain => exact .inl ⟨toolchain, rfl, .inl named⟩
  | none =>
      cases setting : getDefaultToolchain P with
      | error raised =>
          refine .inr ⟨.inr ⟨raised, rfl⟩, ?_⟩
          rintro toolchain (named' | ⟨_, _, setting', _⟩)
          · cases named.symm.trans named'
          · cases setting.symm.trans setting'
      | ok value =>
          cases known : given? value with
          | some toolchain =>
              refine .inl ⟨toolchain, ?_, .inr ⟨named, value, setting, known⟩⟩
              exact congrArg (EStateM.Result.ok · before) known
          | none =>
              refine .inr ⟨.inl (congrArg (EStateM.Result.ok · before) known), ?_⟩
              rintro toolchain (named' | ⟨_, _, setting', known'⟩)
              · cases named.symm.trans named'
              · cases setting.symm.trans setting'
                cases known.symm.trans known'

theorem Chosen.unique {a b : Text} (first : Chosen N P args a) (second : Chosen N P args b) :
    a = b := by
  rcases first with named | ⟨named, _, read, selected⟩ <;>
    rcases second with named' | ⟨named', _, read', selected'⟩
  · exact Option.some.inj (named.symm.trans named')
  · cases named.symm.trans named'
  · cases named.symm.trans named'
  · cases read.symm.trans read'
    exact Selection.selected.inj (selected.symm.trans selected')

theorem Configured.unique {a b : Text} (first : Configured P args a)
    (second : Configured P args b) : a = b := by
  rcases first with named | ⟨named, _, setting, known⟩ <;>
    rcases second with named' | ⟨named', _, setting', known'⟩
  · exact Option.some.inj (named.symm.trans named')
  · cases named.symm.trans named'
  · cases named.symm.trans named'
  · cases setting.symm.trans setting'
    exact Option.some.inj (known.symm.trans known')

theorem Picks.unique {d d' t t' b b' : Text} (first : Picks N P args d t b)
    (second : Picks N P args d' t' b') : d = d' ∧ t = t' ∧ b = b' := by
  obtain rfl := first.chosen.unique second.chosen
  obtain rfl := first.configured.unique second.configured
  have found := first.found.symm.trans second.found
  exact ⟨rfl, rfl, Option.some.inj (Except.ok.inj found)⟩

/-- Once deployment and toolchain are known, their binary is flashed if it is found. -/
theorem flashBuild_cases (P : Project) (H : Host) (args : Arguments)
    (deployment toolchain : Text) (before : Desk) :
    (∃ binFile, findBinFile P deployment toolchain = .ok (some binFile) ∧
      flashBuild P H args deployment toolchain before =
        flashDevice H binFile (deviceFor args toolchain) args.verbose before) ∨
    (∀ binFile, findBinFile P deployment toolchain ≠ .ok (some binFile)) ∧
      ∃ next, Untouched before next ∧
        (flashBuild P H args deployment toolchain before = .ok 1 next ∨
          ∃ raised, flashBuild P H args deployment toolchain before = .error raised next) := by
  cases found : findBinFile P deployment toolchain with
  | error raised =>
      have asked : ask (findBinFile P deployment toolchain) before = .error raised before := by
        rw [found]
        rfl
      refine .inr ⟨?_, before, .refl before, .inr ⟨raised, bind_error _ asked⟩⟩
      rintro binFile ⟨⟩
  | ok binFile =>
      have asked : ask (findBinFile P deployment toolchain) before = .ok binFile before := by
        rw [found]
        rfl
      cases binFile with
      | some binFile => exact .inl ⟨binFile, rfl, bind_ok _ asked⟩
      | none =>
          refine .inr ⟨?_, before.report .noBinFile, ⟨rfl, rfl⟩, .inl (bind_ok _ asked)⟩
          rintro binFile ⟨⟩

/-- `main` flashes what it picks, and without a pick it returns 1 or raises. -/
theorem main_cases (N : Numerals) (P : Project) (H : Host) (args : Arguments) (before : Desk) :
    ∃ next, Untouched before next ∧
      ((∃ deployment toolchain binFile, Picks N P args deployment toolchain binFile ∧
        main N P H args before =
          flashDevice H binFile (deviceFor args toolchain) args.verbose next) ∨
      ((∀ deployment toolchain binFile, ¬Picks N P args deployment toolchain binFile) ∧
        (main N P H args before = .ok 1 next ∨
          ∃ raised, main N P H args before = .error raised next))) := by
  have choice : Ends (chooseDeployment N P args) (Chosen N P args) before :=
    chooseDeployment_ends before
  obtain ⟨next, same, ⟨deployment, run, chosen⟩ | ⟨run | ⟨raised, run⟩, none⟩⟩ := choice
  · have setting : Ends (chooseToolchain P args) (Configured P args) next :=
      chooseToolchain_ends next
    obtain ⟨last, same', ⟨toolchain, run', configured⟩ | ⟨run' | ⟨raised, run'⟩, none⟩⟩ := setting
    · have went : main N P H args before = flashBuild P H args deployment toolchain last := by
        rw [main]
        exact (bind_ok _ run).trans (bind_ok _ run')
      rw [went]
      rcases flashBuild_cases P H args deployment toolchain last with
        ⟨binFile, found, flashed⟩ | ⟨missing, after, same'', failed⟩
      · exact ⟨last, same.trans same',
          .inl ⟨deployment, toolchain, binFile, ⟨chosen, configured, found⟩, flashed⟩⟩
      · refine ⟨after, (same.trans same').trans same'', .inr ⟨?_, failed⟩⟩
        rintro deployment' toolchain' binFile ⟨chosen', configured', found'⟩
        rw [← chosen.unique chosen', ← configured.unique configured'] at found'
        exact missing binFile found'
    · refine ⟨last.report .noToolchain, (same.trans same').trans ⟨rfl, rfl⟩,
        .inr ⟨fun _ toolchain _ picks => none toolchain picks.configured, .inl ?_⟩⟩
      rw [main]
      exact (bind_ok _ run).trans (bind_ok _ run')
    · refine ⟨last, same.trans same',
        .inr ⟨fun _ toolchain _ picks => none toolchain picks.configured, .inr ⟨raised, ?_⟩⟩⟩
      rw [main]
      exact (bind_ok _ run).trans (bind_error _ run')
  · refine ⟨next, same,
      .inr ⟨fun deployment _ _ picks => none deployment picks.chosen, .inl ?_⟩⟩
    rw [main]
    exact bind_ok _ run
  · refine ⟨next, same,
      .inr ⟨fun deployment _ _ picks => none deployment picks.chosen, .inr ⟨raised, ?_⟩⟩⟩
    rw [main]
    exact bind_error _ run

/-- Every device is flashed from the start of its memory. -/
theorem getFlashAddress_eq (device : Text) : getFlashAddress device = "0x0000".toList := by
  rw [getFlashAddress, List.lookup_singleton]
  split <;> rfl

/-- With the template of the repository the script that gets written loads the binary to
the start of the memory. -/
theorem Written.script_eq {binFile device scriptPath script : Text}
    (template : H.template = .ok flashJlink)
    (written : Written H binFile (getFlashAddress device) scriptPath script) :
    script = loadScript binFile "0x0000".toList := by
  obtain ⟨_, found, rendered⟩ := written.rendered
  cases found.symm.trans template
  rw [format_flashJlink, getFlashAddress_eq] at rendered
  exact (Option.some.inj rendered).symm

end Choices

/-- For every parsed command line, project, input and machine: with the template of the
repository the script returns 0 exactly when it picks a binary that exists, for the
deployment and the toolchain chosen, and JLinkExe, started on the script written for it,
returns 0 with an output that mentions a download or at least no failure to connect. It
starts JLinkExe at most once, on the device asked for and with the script that loads this
binary to address 0. If writing and removing the temporary file succeed, none is left. -/
theorem flash_script (N : Numerals) (P : Project) (H : Host) (args : Arguments) (before : Desk)
    (fresh : ∀ scriptPath, H.mkstemp = .ok scriptPath → before.files scriptPath = none)
    (template : H.template = .ok flashJlink) :
    let result := main N P H args before
    ((∃ next, result = .ok 0 next) ↔
      ∃ deployment toolchain binFile output, Picks N P args deployment toolchain binFile ∧
        Answers H binFile (deviceFor args toolchain) args.verbose 0 output ∧
        Unobjected output) ∧
    ((endDesk result).starts = before.starts ∨
      ∃ deployment toolchain binFile, Picks N P args deployment toolchain binFile ∧
        (endDesk result).starts = before.starts ++
          [⟨deviceFor args toolchain, loadScript binFile "0x0000".toList⟩]) ∧
    (H.fdopen = .ok () → H.write = .ok () → H.unlink = .ok () →
      (endDesk result).files = before.files) := by
  intro result
  obtain ⟨next, ⟨files, starts⟩, ⟨deployment, toolchain, binFile, picks, flashed⟩ |
    ⟨none, failed⟩⟩ := main_cases N P H args before
  · have went := flashDevice_cases H binFile (deviceFor args toolchain) args.verbose next
    rw [← flashed] at went
    rw [← files] at fresh
    refine ⟨?_, ?_, ?_⟩
    · rw [went.zero_iff]
      constructor
      · rintro ⟨output, answers, accepted⟩
        exact ⟨deployment, toolchain, binFile, output, picks, answers, accepted⟩
      · rintro ⟨deployment', toolchain', binFile', output, picks', answers, accepted⟩
        obtain ⟨rfl, rfl, rfl⟩ := picks.unique picks'
        exact ⟨output, answers, accepted⟩
    · rw [← starts]
      rcases went.starts with unstarted | ⟨scriptPath, script, written, started⟩
      · exact .inl unstarted
      · refine .inr ⟨deployment, toolchain, binFile, picks, ?_⟩
        rw [started, written.script_eq template]
    · intro opened wrote unlinked
      rw [← files, went.files_iff fresh]
      refine ⟨?_, fun _ => unlinked⟩
      rintro scriptPath ⟨_, _, opened' | wrote'⟩
      · exact opened' opened
      · exact wrote' wrote
  · have code : ∀ last, result ≠ .ok 0 last := by
      intro last zero
      rcases failed with one | ⟨raised, error⟩
      · cases one.symm.trans zero
      · cases error.symm.trans zero
    have left : endDesk result = next := by
      rcases failed with one | ⟨raised, error⟩
      · exact congrArg endDesk one
      · exact congrArg endDesk error
    refine ⟨?_, .inl (left ▸ starts), fun _ _ _ => left ▸ files⟩
    constructor
    · exact fun ⟨last, zero⟩ => absurd zero (code last)
    · exact fun ⟨_, _, _, _, picks, _⟩ => absurd picks (none _ _ _)

/-- `settings.ini`, as far as the script looks into it. -/
def settingsIni : Config := fun name =>
  if name = "fprime".toList then
    some fun option =>
      if option = "default_toolchain".toList then some (.ok "samd21g17".toList) else none
  else none

/-- A project with one build. -/
def built : Project where
  cmakeFile := .ok none
  settings := .ok (some settingsIni)
  exists? path := .ok (decide (path =
    "build-artifacts/samd21g17/CuriosityReference/bin/CuriosityReference.elf.bin".toList))
  path name := "/project/".toList ++ name
  typed := []

def reference : Arguments := ⟨some "CuriosityReference".toList, none, none, false⟩

theorem flash_script_reference :
    (∃ next, main .plain built bench reference emptyDesk = .ok 0 next) ∧
      (endDesk (main .plain built bench reference emptyDesk)).files = emptyDesk.files := by
  obtain ⟨zero, _, tidy⟩ :=
    flash_script .plain built bench reference emptyDesk (fun _ _ => rfl) rfl
  have found : findBinFile built "CuriosityReference".toList "samd21g17".toList =
      .ok (some ("/project/build-artifacts/samd21g17/CuriosityReference/bin/".toList ++
        "CuriosityReference.elf.bin".toList)) := by decide
  exact ⟨zero.mpr ⟨_, _, _, downloading, ⟨.inl rfl, .inr ⟨rfl, _, rfl, rfl⟩, found⟩,
    bench_answers _ _ _, .inl (List.infix_refl _)⟩, tidy rfl rfl rfl⟩

end JlinkFlash
