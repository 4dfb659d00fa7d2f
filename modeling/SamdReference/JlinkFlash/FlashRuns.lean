import SamdReference.JlinkFlash.FlashDevice

/-!
# Every run of `flash_device`

There are two kinds: the script is not written and the exception ends the run, or it is
written, the attempt to flash ends in one of a few ways, and the script is removed.
-/

namespace JlinkFlash

open Raising

section Flash

variable {H : Host} {binFile device scriptPath script : Text} {verbose : Bool} {before : Desk}

/-- Every way the body of `flash_device` can go once the script is written, with the
`except` clauses that answer it. -/
inductive Attempt (H : Host) (device script : Text) (verbose : Bool) (before : Desk) :
    EStateM.Result Raised Desk Int → Prop where
  | unread {raised : Raised} (asked : verbose = true) (failed : H.reopen = .error raised) :
      Attempt H device script verbose before (excepts raised before)
  | unstarted {raised : Raised} (read : verbose = true → H.reopen = .ok ())
      (failed : H.jlinkExe ⟨device, script⟩ = .error raised) :
      Attempt H device script verbose before
        (excepts raised ((before.report .connecting).start ⟨device, script⟩))
  | judged {returncode : Int} {output : Text} (read : verbose = true → H.reopen = .ok ())
      (answered : H.jlinkExe ⟨device, script⟩ = .ok (returncode, output)) :
      Attempt H device script verbose before
        (judge returncode output ((before.report .connecting).start ⟨device, script⟩))

/-- JLinkExe is started on what was written, and its answer is judged. -/
theorem startJlink_eq (H : Host) (device : Text) (here : before.files scriptPath = some script) :
    startJlink H scriptPath device before =
      (ask (H.jlinkExe ⟨device, script⟩) >>= fun answer => judge answer.1 answer.2)
        ((before.report .connecting).start ⟨device, script⟩) := by
  have started : startJlink H scriptPath device before =
      (ask (H.jlinkExe ⟨device, (before.files scriptPath).getD []⟩) >>=
        fun answer => judge answer.1 answer.2)
          ((before.report .connecting).start ⟨device, (before.files scriptPath).getD []⟩) := rfl
  rw [started, here, Option.getD_some]

theorem runJlink_attempt (H : Host) (device : Text) (verbose : Bool)
    (here : before.files scriptPath = some script) :
    Attempt H device script verbose before
      (tryCatch (runJlink H scriptPath device verbose) excepts before) := by
  have started : (verbose = true → H.reopen = .ok ()) → Attempt H device script verbose before
      (tryCatch (startJlink H scriptPath device) excepts before) := by
    intro read
    have run := startJlink_eq H device here
    cases answer : H.jlinkExe ⟨device, script⟩ with
    | error raised =>
        rw [answer] at run
        rw [tryCatch_error _ run]
        exact .unstarted read answer
    | ok answered =>
        obtain ⟨code, message, judged, _⟩ := judge_cases answered.1 answered.2
          ((before.report .connecting).start ⟨device, script⟩)
        rw [answer] at run
        rw [tryCatch_ok _ (run.trans judged), ← judged]
        exact .judged read answer
  cases verbose with
  | false => exact started (fun asked => nomatch asked)
  | true =>
      cases reopen : H.reopen with
      | error raised =>
          have run : runJlink H scriptPath device true before = .error raised before := by
            rw [runJlink, reopen]
            rfl
          rw [tryCatch_error _ run]
          exact .unread rfl reopen
      | ok =>
          have run : runJlink H scriptPath device true = startJlink H scriptPath device := by
            rw [runJlink, reopen]
            rfl
          rw [run]
          exact started fun _ => reopen

/-- The end of the `finally` clause. -/
def Host.finish (H : Host) (scriptPath : Text) :
    EStateM.Result Raised Desk Int → EStateM.Result Raised Desk Int
  | .ok code next => .ok code (H.removed scriptPath next)
  | .error raised next => .error raised (H.removed scriptPath next)

/-- An attempt leaves the temporary files alone and raises nothing but what only a bare
`except` catches. -/
theorem Attempt.frame {result : EStateM.Result Raised Desk Int}
    (attempt : Attempt H device script verbose before result) :
    (endDesk result).files = before.files ∧
      ∀ raised next, result = .error raised next → raised = .interrupt := by
  have interrupted : ∀ raised next r d, excepts raised next = .error r d → r = .interrupt := by
    intro raised next r d error
    rcases excepts_cases raised next with ⟨_, _, caught⟩ | uncaught
    · cases caught.symm.trans error
    · cases uncaught.symm.trans error
      rfl
  cases attempt with
  | unread => exact ⟨(endDesk_excepts _ _).1, interrupted _ _⟩
  | unstarted => exact ⟨(endDesk_excepts _ _).1, interrupted _ _⟩
  | @judged returncode output =>
      obtain ⟨code, message, judged, _⟩ := judge_cases returncode output
        ((before.report .connecting).start ⟨device, script⟩)
      rw [judged]
      exact ⟨rfl, fun _ _ error => nomatch error⟩

/-- Every way `flash_device` can go. -/
inductive Flash (H : Host) (binFile device : Text) (verbose : Bool) (before : Desk) :
    EStateM.Result Raised Desk Int → Prop where
  | unwritten {raised : Raised} {next : Desk}
      (never : ∀ scriptPath script, ¬Written H binFile (getFlashAddress device) scriptPath script)
      (left : Unwritten H binFile (getFlashAddress device) before next) :
      Flash H binFile device verbose before (excepts raised next)
  | attempted {scriptPath script : Text} {result : EStateM.Result Raised Desk Int}
      (written : Written H binFile (getFlashAddress device) scriptPath script)
      (attempt : Attempt H device script verbose (before.put scriptPath (some script)) result) :
      Flash H binFile device verbose before (H.finish scriptPath result)

theorem flashDevice_cases (H : Host) (binFile device : Text) (verbose : Bool) (before : Desk) :
    Flash H binFile device verbose before (flashDevice H binFile device verbose before) := by
  by_cases written : ∃ scriptPath script,
      Written H binFile (getFlashAddress device) scriptPath script
  · obtain ⟨scriptPath, script, written⟩ := written
    have here : (before.put scriptPath (some script)).files scriptPath = some script :=
      before.put_files_self scriptPath (some script)
    have attempt := runJlink_attempt H device verbose here
    obtain ⟨files, interrupted⟩ := attempt.frame
    rw [flashDevice]
    cases ran : tryCatch (runJlink H scriptPath device verbose) excepts
        (before.put scriptPath (some script)) with
    | ok code next =>
        rw [ran] at attempt files
        have present : (next.files scriptPath).isSome := by
          rw [show next.files = _ from files, here, Option.isSome_some]
        have cleaned := tryFinally_ok ran (cleanUp_eq (H := H) present)
        rw [tryCatch_ok _ ((bind_ok _ (create_written written before)).trans cleaned)]
        exact .attempted written attempt
    | error raised next =>
        rw [ran] at attempt files
        have present : (next.files scriptPath).isSome := by
          rw [show next.files = _ from files, here, Option.isSome_some]
        have cleaned := tryFinally_error ran (cleanUp_eq (H := H) present)
        obtain rfl := interrupted raised next ran
        rw [tryCatch_error _ ((bind_ok _ (create_written written before)).trans cleaned)]
        exact .attempted written attempt
  · simp only [not_exists] at written
    obtain ⟨raised, next, run, left⟩ := create_unwritten written before
    have raises := bind_error (fun scriptPath => tryFinally
      (tryCatch (runJlink H scriptPath device verbose) excepts) (cleanUp H scriptPath)) run
    rw [flashDevice]
    rw [tryCatch_error _ raises]
    exact .unwritten written left

/-- JLinkExe, started on a written script that was read back if it is to be logged, ends
with this return code and output. -/
def Answer (H : Host) (device script : Text) (verbose : Bool) (returncode : Int)
    (output : Text) : Prop :=
  (verbose = true → H.reopen = .ok ()) ∧ H.jlinkExe ⟨device, script⟩ = .ok (returncode, output)

/-- The script gets written, and JLinkExe answers. -/
def Answers (H : Host) (binFile device : Text) (verbose : Bool) (returncode : Int)
    (output : Text) : Prop :=
  ∃ scriptPath script, Written H binFile (getFlashAddress device) scriptPath script ∧
    Answer H device script verbose returncode output

/-- Messages logged on the way to an exit code name an error exactly if it is not zero. -/
def Explained (before : Desk) (result : EStateM.Result Raised Desk Int) : Prop :=
  ∀ code next, result = .ok code next →
    ∃ said, next.log = before.log ++ said ∧ (code ≠ 0 ↔ ∃ message ∈ said, message.isError = true)

theorem excepts_explained (raised : Raised) {next : Desk} (said : List Message)
    (log : next.log = before.log ++ said) : Explained before (excepts raised next) := by
  intro code last ran
  rcases excepts_cases raised next with ⟨message, error, caught⟩ | uncaught
  · cases caught.symm.trans ran
    refine ⟨said ++ [message], ?_, iff_of_true (by decide) ⟨message, by simp, error⟩⟩
    rw [Desk.report_log, log, List.append_assoc]
  · cases uncaught.symm.trans ran

/-- The log tells of success exactly if it is confirmed. -/
def Claimed (before : Desk) (result : EStateM.Result Raised Desk Int) (confirmed : Prop) :
    Prop :=
  ∃ said, (endDesk result).log = before.log ++ said ∧ (.flashSuccessful ∈ said ↔ confirmed)

/-- An exception is never logged as a success. -/
theorem excepts_claimed (raised : Raised) {next : Desk} {said : List Message}
    (log : next.log = before.log ++ said) (quiet : .flashSuccessful ∉ said) {confirmed : Prop}
    (unconfirmed : ¬confirmed) : Claimed before (excepts raised next) confirmed := by
  rcases excepts_cases raised next with ⟨message, error, caught⟩ | uncaught
  · rw [caught]
    refine ⟨said ++ [message], ?_, iff_of_false ?_ unconfirmed⟩
    · rw [← List.append_assoc, ← log]
      rfl
    · rintro claimed
      rcases List.mem_append.mp claimed with early | last
      · exact quiet early
      · obtain rfl := List.mem_singleton.mp last
        cases error
  · rw [uncaught]
    exact ⟨said, log, iff_of_false quiet unconfirmed⟩

theorem excepts_nonzero (raised : Raised) (before next : Desk) :
    excepts raised before ≠ .ok 0 next := by
  rcases excepts_cases raised before with ⟨_, _, caught⟩ | uncaught
  · simp [caught]
  · simp [uncaught]

section Attempts

variable {result : EStateM.Result Raised Desk Int}

theorem Attempt.zero_iff (attempt : Attempt H device script verbose before result) :
    (∃ next, result = .ok 0 next) ↔
      ∃ output, Answer H device script verbose 0 output ∧ Unobjected output := by
  cases attempt with
  | unread asked failed =>
      refine iff_of_false (fun ⟨_, ran⟩ => excepts_nonzero _ _ _ ran) ?_
      rintro ⟨_, ⟨read, _⟩, _⟩
      cases failed.symm.trans (read asked)
  | unstarted _ failed =>
      refine iff_of_false (fun ⟨_, ran⟩ => excepts_nonzero _ _ _ ran) ?_
      rintro ⟨_, ⟨_, answered⟩, _⟩
      cases failed.symm.trans answered
  | @judged returncode output read answered =>
      obtain ⟨code, message, judged, zero, _⟩ := judge_cases returncode output
        ((before.report .connecting).start ⟨device, script⟩)
      rw [judged]
      constructor
      · rintro ⟨next, ran⟩
        cases ran
        obtain ⟨rfl, accepted⟩ := zero.mp rfl
        exact ⟨output, ⟨read, answered⟩, accepted⟩
      · rintro ⟨output', ⟨_, answered'⟩, accepted⟩
        cases answered.symm.trans answered'
        obtain rfl := zero.mpr ⟨rfl, accepted⟩
        exact ⟨_, rfl⟩

theorem Attempt.claimed (attempt : Attempt H device script verbose before result) :
    Claimed before result
      (∃ output, Answer H device script verbose 0 output ∧ downloading <:+: output) := by
  cases attempt with
  | unread asked failed =>
      refine excepts_claimed _ (List.append_nil _).symm List.not_mem_nil ?_
      rintro ⟨_, ⟨read, _⟩, _⟩
      cases failed.symm.trans (read asked)
  | unstarted _ failed =>
      have log : ((before.report .connecting).start ⟨device, script⟩).log =
          before.log ++ [.connecting] := rfl
      refine excepts_claimed _ log (by decide) ?_
      rintro ⟨_, ⟨_, answered⟩, _⟩
      cases failed.symm.trans answered
  | @judged returncode output read answered =>
      obtain ⟨code, message, judged, _, success, _⟩ := judge_cases returncode output
        ((before.report .connecting).start ⟨device, script⟩)
      rw [judged]
      refine ⟨[.connecting, message], by simp [endDesk], ?_⟩
      have own : .flashSuccessful ∈ [.connecting, message] ↔ message = .flashSuccessful := by
        simp [eq_comm]
      rw [own, success]
      constructor
      · rintro ⟨rfl, download⟩
        exact ⟨output, ⟨read, answered⟩, download⟩
      · rintro ⟨output', ⟨_, answered'⟩, download⟩
        cases answered.symm.trans answered'
        exact ⟨rfl, download⟩

theorem Attempt.starts (attempt : Attempt H device script verbose before result) :
    (endDesk result).starts = before.starts ∨
      (endDesk result).starts = before.starts ++ [⟨device, script⟩] := by
  cases attempt with
  | unread => exact .inl (endDesk_excepts _ _).2
  | unstarted => exact .inr (endDesk_excepts _ _).2
  | @judged returncode output =>
      obtain ⟨code, message, judged, _⟩ := judge_cases returncode output
        ((before.report .connecting).start ⟨device, script⟩)
      rw [judged]
      exact .inr rfl

theorem Attempt.explained (attempt : Attempt H device script verbose before result) :
    Explained before result := by
  cases attempt with
  | unread => exact excepts_explained _ [] (List.append_nil _).symm
  | unstarted => exact excepts_explained _ [.connecting] rfl
  | @judged returncode output =>
      obtain ⟨code, message, judged, _, _, error⟩ := judge_cases returncode output
        ((before.report .connecting).start ⟨device, script⟩)
      intro code' next ran
      cases judged.symm.trans ran
      have quiet : Message.connecting.isError = false := rfl
      exact ⟨[.connecting, message], by simp, by simp [quiet, error]⟩

end Attempts

section Finish

variable {result : EStateM.Result Raised Desk Int}

theorem Host.endDesk_finish (H : Host) (scriptPath : Text) :
    endDesk (H.finish scriptPath result) = H.removed scriptPath (endDesk result) := by
  cases result <;> rfl

@[simp] theorem removed_starts (H : Host) (scriptPath : Text) (next : Desk) :
    (H.removed scriptPath next).starts = next.starts := by
  rw [Host.removed]
  cases H.unlink <;> rfl

@[simp] theorem removed_log (H : Host) (scriptPath : Text) (next : Desk) :
    (H.removed scriptPath next).log = next.log := by
  rw [Host.removed]
  cases H.unlink <;> rfl

/-- Removing the script restores the files exactly if `unlink` succeeds. -/
theorem removed_files_iff (absent : before.files scriptPath = none) {next : Desk}
    (files : next.files = (before.put scriptPath (some script)).files) :
    (H.removed scriptPath next).files = before.files ↔ H.unlink = .ok () := by
  rw [Host.removed]
  cases unlink : H.unlink with
  | ok =>
      refine iff_of_true ?_ rfl
      simp only [Desk.put, files, Function.update_idem, Function.update_eq_self_iff, absent]
  | error raised =>
      refine iff_of_false ?_ ?_
      · intro restored
        have present := congrFun (files.symm.trans restored) scriptPath
        rw [Desk.put_files_self, absent] at present
        cases present
      · intro unlinked
        cases unlinked

theorem Host.finish_zero (H : Host) (scriptPath : Text) :
    (∃ next, H.finish scriptPath result = .ok 0 next) ↔ ∃ next, result = .ok 0 next := by
  cases result with
  | ok code next => simp [Host.finish]
  | error raised next => simp [Host.finish]

theorem Explained.finish (explained : Explained before result) :
    Explained before (H.finish scriptPath result) := by
  intro code last ran
  cases result with
  | ok code next =>
      cases ran
      rw [removed_log]
      exact explained code next rfl
  | error raised next => cases ran

theorem Claimed.finish {confirmed : Prop} (claimed : Claimed before result confirmed) :
    Claimed before (H.finish scriptPath result) confirmed := by
  obtain ⟨said, log, success⟩ := claimed
  refine ⟨said, ?_, success⟩
  rw [Host.endDesk_finish, removed_log]
  exact log

end Finish

theorem Written.unique {scriptPath' script' : Text} {flashAddr : Text}
    (first : Written H binFile flashAddr scriptPath script)
    (second : Written H binFile flashAddr scriptPath' script') :
    scriptPath = scriptPath' ∧ script = script' := by
  obtain ⟨⟨_, found, rendered⟩, created, _, _⟩ := first
  obtain ⟨⟨_, found', rendered'⟩, created', _, _⟩ := second
  cases found.symm.trans found'
  cases created.symm.trans created'
  cases rendered.symm.trans rendered'
  exact ⟨rfl, rfl⟩

/-- An answer is one to the script that is written. -/
theorem Written.answers_iff (written : Written H binFile (getFlashAddress device) scriptPath script)
    {returncode : Int} {output : Text} :
    Answers H binFile device verbose returncode output ↔
      Answer H device script verbose returncode output := by
  constructor
  · rintro ⟨_, _, written', answer⟩
    obtain ⟨rfl, rfl⟩ := written.unique written'
    exact answer
  · exact fun answer => ⟨scriptPath, script, written, answer⟩

theorem Written.not_stranded {scriptPath' : Text} {flashAddr : Text}
    (written : Written H binFile flashAddr scriptPath script) :
    ¬Stranded H binFile flashAddr scriptPath' := by
  rintro ⟨_, _, opened | wrote⟩
  · exact opened written.opened
  · exact wrote written.wrote

section Ways

variable {result : EStateM.Result Raised Desk Int}

theorem Flash.zero_iff (went : Flash H binFile device verbose before result) :
    (∃ next, result = .ok 0 next) ↔
      ∃ output, Answers H binFile device verbose 0 output ∧ Unobjected output := by
  cases went with
  | unwritten never =>
      refine iff_of_false (fun ⟨_, ran⟩ => excepts_nonzero _ _ _ ran) ?_
      rintro ⟨_, ⟨scriptPath, script, written, _⟩, _⟩
      exact never scriptPath script written
  | attempted written attempt =>
      rw [Host.finish_zero, attempt.zero_iff]
      simp only [written.answers_iff]

theorem Unwritten.frame {flashAddr : Text} {next : Desk}
    (left : Unwritten H binFile flashAddr before next) :
    next.starts = before.starts ∧
      ∃ said, next.log = before.log ++ said ∧ .flashSuccessful ∉ said := by
  cases left with
  | noTemplate => exact ⟨rfl, [.templateNotFound], rfl, by decide⟩
  | nothing => exact ⟨rfl, [], (List.append_nil _).symm, List.not_mem_nil⟩
  | stranded => exact ⟨rfl, [], (List.append_nil _).symm, List.not_mem_nil⟩

theorem Flash.starts (went : Flash H binFile device verbose before result) :
    (endDesk result).starts = before.starts ∨ ∃ scriptPath script,
      Written H binFile (getFlashAddress device) scriptPath script ∧
        (endDesk result).starts = before.starts ++ [⟨device, script⟩] := by
  cases went with
  | unwritten _ left => exact .inl ((endDesk_excepts _ _).2.trans left.frame.1)
  | attempted written attempt =>
      rw [Host.endDesk_finish, removed_starts]
      rcases attempt.starts with none | one
      · exact .inl none
      · exact .inr ⟨_, _, written, one⟩

theorem Flash.explained (went : Flash H binFile device verbose before result) :
    Explained before result := by
  cases went with
  | unwritten _ left =>
      obtain ⟨_, said, log, _⟩ := left.frame
      exact excepts_explained _ said log
  | attempted _ attempt =>
      have explained := attempt.explained
      exact Explained.finish explained

theorem Flash.claimed (went : Flash H binFile device verbose before result) :
    Claimed before result
      (∃ output, Answers H binFile device verbose 0 output ∧ downloading <:+: output) := by
  cases went with
  | unwritten never left =>
      obtain ⟨_, said, log, quiet⟩ := left.frame
      refine excepts_claimed _ log quiet ?_
      rintro ⟨_, ⟨scriptPath, script, written, _⟩, _⟩
      exact never scriptPath script written
  | attempted written attempt =>
      have claimed := attempt.claimed
      simp only [written.answers_iff]
      exact claimed.finish

theorem Flash.files_iff (went : Flash H binFile device verbose before result)
    (fresh : ∀ scriptPath, H.mkstemp = .ok scriptPath → before.files scriptPath = none) :
    (endDesk result).files = before.files ↔
      (∀ scriptPath, ¬Stranded H binFile (getFlashAddress device) scriptPath) ∧
        ((∃ scriptPath script, Written H binFile (getFlashAddress device) scriptPath script) →
          H.unlink = .ok ()) := by
  cases went with
  | unwritten never left =>
      have vacuous : (∃ scriptPath script,
          Written H binFile (getFlashAddress device) scriptPath script) → H.unlink = .ok () := by
        rintro ⟨scriptPath, script, written⟩
        exact absurd written (never scriptPath script)
      rw [(endDesk_excepts _ _).1]
      cases left with
      | noTemplate missing =>
          refine iff_of_true rfl ⟨?_, vacuous⟩
          rintro scriptPath ⟨⟨_, _, found, _⟩, _, _⟩
          cases missing.symm.trans found
      | nothing absent => exact iff_of_true rfl ⟨absent, vacuous⟩
      | @stranded scriptPath content left =>
          refine iff_of_false ?_ (fun tidy => tidy.1 scriptPath left)
          intro same
          have present := congrFun same scriptPath
          rw [Desk.put_files_self, fresh scriptPath left.created] at present
          cases present
  | attempted written attempt =>
      rw [Host.endDesk_finish, removed_files_iff (fresh _ written.created) attempt.frame.1]
      constructor
      · exact fun unlinked => ⟨fun _ => written.not_stranded, fun _ => unlinked⟩
      · exact fun tidy => tidy.2 ⟨_, _, written⟩

end Ways

end Flash

/-- For every behaviour of the machine `flash_device` returns 0 exactly when the script gets
written and JLinkExe, started on it, returns 0 with an output that mentions a download or
at least no failure to connect, and it logs success exactly when a download is mentioned
there. It starts JLinkExe at most once, on a script that is completely written; it logs an
error exactly when it returns something else than 0; and it leaves no temporary file
behind unless one was created and not written, or cannot be removed. -/
theorem flash_device (H : Host) (binFile device : Text) (verbose : Bool) (before : Desk)
    (fresh : ∀ scriptPath, H.mkstemp = .ok scriptPath → before.files scriptPath = none) :
    let result := flashDevice H binFile device verbose before
    ((∃ next, result = .ok 0 next) ↔
      ∃ output, Answers H binFile device verbose 0 output ∧ Unobjected output) ∧
    Claimed before result
      (∃ output, Answers H binFile device verbose 0 output ∧ downloading <:+: output) ∧
    ((endDesk result).starts = before.starts ∨ ∃ scriptPath script,
      Written H binFile (getFlashAddress device) scriptPath script ∧
        (endDesk result).starts = before.starts ++ [⟨device, script⟩]) ∧
    Explained before result ∧
    ((endDesk result).files = before.files ↔
      (∀ scriptPath, ¬Stranded H binFile (getFlashAddress device) scriptPath) ∧
        ((∃ scriptPath script, Written H binFile (getFlashAddress device) scriptPath script) →
          H.unlink = .ok ())) := by
  have went := flashDevice_cases H binFile device verbose before
  exact ⟨went.zero_iff, went.claimed, went.starts, went.explained, went.files_iff fresh⟩

/-- A machine with a probe and a device on it. -/
def bench : Host where
  template := .ok flashJlink
  mkstemp := .ok "/tmp/a.jlink".toList
  fdopen := .ok ()
  write := .ok ()
  residue := []
  reopen := .ok ()
  jlinkExe _ := .ok (0, downloading)
  unlink := .ok ()

def emptyDesk : Desk := ⟨fun _ => none, [], []⟩

theorem bench_answers (binFile device : Text) (verbose : Bool) :
    Answers bench binFile device verbose 0 downloading :=
  ⟨"/tmp/a.jlink".toList, loadScript binFile (getFlashAddress device),
    ⟨⟨flashJlink, rfl, format_flashJlink _ _⟩, rfl, rfl, rfl⟩, fun _ => rfl, rfl⟩

theorem flash_device_bench :
    (∃ next, flashDevice bench "a.bin".toList "ATSAMD21G17A".toList true emptyDesk =
      .ok 0 next) ∧
    (endDesk (flashDevice bench "a.bin".toList "ATSAMD21G17A".toList true emptyDesk)).files =
      emptyDesk.files := by
  obtain ⟨zero, _, _, _, tidy⟩ :=
    flash_device bench "a.bin".toList "ATSAMD21G17A".toList true emptyDesk (fun _ _ => rfl)
  refine ⟨zero.mpr ⟨downloading, bench_answers _ _ _, .inl (List.infix_refl _)⟩,
    tidy.mpr ⟨?_, fun _ => rfl⟩⟩
  rintro scriptPath ⟨_, _, opened | wrote⟩
  · exact opened rfl
  · exact wrote rfl

end JlinkFlash
