import ClosedWorld.CommandLine.Session
import ClosedWorld.Proofs.Files

/-!
# A session writes what it prepared, or nothing

Much can go wrong in a session: the arguments, either of the two files, the
configuration, the program in it, any stage of the run, and in the end the file that
is to be written. By then the program may be half prepared. Nobody sees that, because
a session shows or writes a program at its very end or not at all
(`session_delivers`).

A session that gets there has prepared the program of its input under the
configuration that its options and its configuration file settle on
(`Invocation.Prepares`). So there are two cases. Either the session prepares a program
and goes on to deliver the text, or it prepares none and has touched nothing. A file
that cannot be written is all that can still turn the first case into a failure.

Nothing is known here of the reader of arguments but that it keeps faults off the
standard output (`Quiet`), and of the files but that only a write that succeeds
changes them (`Files.Lawful`).
-/

namespace ClosedWorld

theorem Config.load_eq_ok {text : String} {c : Config} :
    Config.load text = .ok c ↔ Config.decode text = .ok c ∧ c.check = .ok () := by
  rw [load, bind_eq_ok]
  constructor
  · rintro ⟨c', hdecode, hcheck⟩
    obtain ⟨⟨⟩, hcheck, hc⟩ := bind_eq_ok.mp hcheck
    cases hc
    exact ⟨hdecode, hcheck⟩
  · rintro ⟨hdecode, hcheck⟩
    exact ⟨c, hdecode, bind_eq_ok.mpr ⟨(), hcheck, rfl⟩⟩

namespace CommandLine

/-! ## What a session relies on -/

/-- A reader of arguments that keeps the standard output free when it has a fault to
report. -/
def Quiet (parse : List String → Except Reply Invocation) : Prop :=
  ∀ args reply, parse args = .error reply → reply.exitCode ≠ 0 → reply.stdout = ""

theorem Arguments.quiet_parse : Quiet Arguments.parse := by
  have hquiet (detour : Detour) : detour.reply.exitCode ≠ 0 → detour.reply.stdout = "" := by
    cases detour with
    | misuse => exact fun _ => rfl
    | help | version => exact fun h => absurd rfl h
  intro args reply h
  rw [parse] at h
  split at h
  next detour _ =>
      cases h
      exact hquiet detour
  next =>
      split at h
      next =>
          cases h
          exact hquiet .misuse
      next => cases h

/-! ## Steps -/

theorem run_bind_eq {σ α β : Type} {x : StateM σ α} {rest : α → StateM σ β} {s s' : σ} {a : α}
    (h : x.run s = (a, s')) : (x >>= rest).run s = (rest a).run s' := by
  rw [StateT.run_bind, h]
  rfl

/-- Reading hands over what is there, and the rest goes on from the same files. -/
theorem Files.Lawful.run_read_bind {σ α : Type} {files : Files (StateM σ)} (h : files.Lawful)
    (name : String) (rest : Except FileFault String → StateM σ α) (s : σ) :
    (files.read name >>= rest).run s = (rest (files.readAt s name)).run s :=
  run_bind_eq (Prod.ext rfl (h.read_keeps name s))

namespace Invocation

/-! ## What a session prepares -/

/-- The configuration that the options apply to: the usual one or, where a file is
named, the valid one that its text describes. -/
inductive Base (i : Invocation) (read : String → Except FileFault String) : Config → Prop
  | usual : i.config = none → Base i read {}
  | ofFile {file text : String} {c : Config} : i.config = some file → read file = .ok text →
      Config.decode text = .ok c → c.check = .ok () → Base i read c

/-- The configuration of the session. The stages that are given, if any are, replace
those of the base, and the option to reject a table overrules its policy. -/
def Settles (i : Invocation) (read : String → Except FileFault String) (c : Config) : Prop :=
  ∃ base, i.Base read base ∧
    c = { base with
      stages := if i.stages = [] then base.stages else i.stages
      tablePolicy := if i.rejectTable then .reject else base.tablePolicy }

/-- The session prepares the program `q`: everything can be read, and a run of the
program that was read succeeds and leaves `q`. -/
def Prepares (i : Invocation) (read : String → Except FileFault String) (q : Program) : Prop :=
  ∃ c text p report, i.Settles read c ∧ read i.input = .ok text ∧ Program.decode text = .ok p ∧
    (c.run p).result = .ok report ∧ (c.run p).program = q

section

variable {i : Invocation} {read : String → Except FileFault String} {c : Config} {file : String}

theorem settles_iff_of_config_eq_none (hfile : i.config = none) :
    i.Settles read c ↔ i.override {} = c := by
  constructor
  · rintro ⟨base, hbase, rfl⟩
    cases hbase with
    | usual => rfl
    | ofFile hsome =>
        rw [hfile] at hsome
        cases hsome
  · rintro rfl
    exact ⟨{}, .usual hfile, rfl⟩

theorem settles_iff_of_config_eq_some (hfile : i.config = some file) :
    i.Settles read c ↔ ∃ text base, read file = .ok text ∧ Config.load text = .ok base ∧
      i.override base = c := by
  constructor
  · rintro ⟨base, hbase, rfl⟩
    cases hbase with
    | usual hnone =>
        rw [hfile] at hnone
        cases hnone
    | ofFile hsome htext hdecode hcheck =>
        rw [hfile] at hsome
        cases hsome
        exact ⟨_, base, htext, Config.load_eq_ok.mpr ⟨hdecode, hcheck⟩, rfl⟩
  · rintro ⟨text, base, htext, hload, rfl⟩
    obtain ⟨hdecode, hcheck⟩ := Config.load_eq_ok.mp hload
    exact ⟨base, .ofFile hfile htext hdecode hcheck, rfl⟩

end

/-- The text of `q` went where the options send it, and nowhere else. Either the files
are what writing it to the file that is named makes of them, and the standard output is
empty, or it stands there with a line end behind it, and the files are what they were. -/
def Delivers {σ : Type} (i : Invocation) (files : Files (StateM σ)) (q : Program) (s : σ)
    (stdout : String) (s' : σ) : Prop :=
  match i.output with
  | some file =>
      (files.write file (i.renderProgram q)).run s = (.ok (), s') ∧
        (files.Stores s file → files.readAt s' file = .ok (i.renderProgram q)) ∧ stdout = ""
  | none => s' = s ∧ stdout = i.renderProgram q ++ "\n"

section

variable {σ : Type} {files : Files (StateM σ)} {i : Invocation} {q : Program} {s s' : σ}
  {reply : Reply}

/-- The configuration is what the files that are there settle on. -/
theorem loadConfig_run (h : files.Lawful) (i : Invocation) (s : σ) :
    ∃ loaded, (i.loadConfig files).run s = (loaded, s) ∧
      ∀ c, loaded = .ok c ↔ i.Settles (files.readAt s) c := by
  rw [loadConfig]
  cases hfile : i.config with
  | none =>
      simp only [settles_iff_of_config_eq_none hfile]
      exact ⟨.ok (i.override {}), rfl, by simp⟩
  | some file =>
      simp only [h.run_read_bind, settles_iff_of_config_eq_some hfile]
      cases files.readAt s file with
      | error fault => exact ⟨_, rfl, by simp⟩
      | ok text =>
          cases hload : Config.load text with
          | error e =>
              simp only [hload]
              exact ⟨_, rfl, by simp [hload]⟩
          | ok base =>
              simp only [hload]
              exact ⟨_, rfl, by simp [hload]⟩

/-- The program is what the text of the input decodes to. -/
theorem loadProgram_run (h : files.Lawful) (i : Invocation) (s : σ) :
    ∃ loaded, (i.loadProgram files).run s = (loaded, s) ∧
      ∀ p, loaded = .ok p ↔
        ∃ text, files.readAt s i.input = .ok text ∧ Program.decode text = .ok p := by
  simp only [loadProgram, h.run_read_bind]
  cases files.readAt s i.input with
  | error fault => exact ⟨_, rfl, by simp⟩
  | ok text =>
      cases hdecode : Program.decode text with
      | error e =>
          simp only [hdecode]
          exact ⟨_, rfl, by simp [hdecode]⟩
      | ok p =>
          simp only [hdecode]
          exact ⟨_, rfl, by simp [hdecode]⟩

/-- A delivery succeeds, or the file that is named cannot be written. -/
theorem deliver_run (h : files.Lawful) {log : List Event}
    (hrun : (i.deliver files log (i.renderProgram q)).run s = (reply, s')) :
    reply.exitCode = 0 ∧ i.Delivers files q s reply.stdout s' ∨
      reply.exitCode = 1 ∧ reply.stdout = "" ∧ s' = s ∧ ∃ file fault, i.output = some file ∧
        (files.write file (i.renderProgram q)).run s = (.error fault, s') := by
  rw [deliver] at hrun
  rw [Delivers]
  cases hfile : i.output with
  | none =>
      rw [hfile] at hrun
      cases hrun
      exact Or.inl ⟨rfl, rfl, rfl⟩
  | some file =>
      simp only [hfile] at hrun
      rcases hwrite : (files.write file (i.renderProgram q)).run s with ⟨fault | ⟨⟩, s₁⟩
      · rw [run_bind_eq hwrite] at hrun
        cases hrun
        exact Or.inr ⟨rfl, rfl, h.write_fails hwrite, file, fault, rfl, hwrite⟩
      · rw [run_bind_eq hwrite] at hrun
        cases hrun
        exact Or.inl ⟨rfl, hwrite, fun hstores => hstores _ _ hwrite, rfl⟩

/-- What a session does that has loaded its configuration and its program. -/
theorem answer_run {c : Config} {p : Program}
    (hc : (i.loadConfig files).run s = (.ok c, s)) (hp : (i.loadProgram files).run s = (.ok p, s)) :
    (i.answer files).run s = (i.finish files (c.run p)).run s := by
  rw [answer, run_bind_eq hc]
  exact run_bind_eq hp

/-- A session that prepares a program goes on to deliver it. -/
theorem answer_of_prepares (h : files.Lawful) (hq : i.Prepares (files.readAt s) q) :
    ∃ log, (i.answer files).run s = (i.deliver files log (i.renderProgram q)).run s := by
  obtain ⟨c, text, p, report, hsettles, htext, hdecode, hresult, rfl⟩ := hq
  obtain ⟨_, hloadc, hc⟩ := loadConfig_run h i s
  obtain ⟨_, hloadp, hp⟩ := loadProgram_run h i s
  rw [(hc c).mpr hsettles] at hloadc
  rw [(hp p).mpr ⟨text, htext, hdecode⟩] at hloadp
  refine ⟨i.visible ((c.run p).events ++ [.finished report]), ?_⟩
  rw [answer_run hloadc hloadp, finish, hresult]

theorem answer_of_not_prepares (h : files.Lawful) (hq : ¬ ∃ q, i.Prepares (files.readAt s) q)
    (hrun : (i.answer files).run s = (reply, s')) :
    reply.exitCode = 1 ∧ reply.stdout = "" ∧ s' = s := by
  obtain ⟨config, hloadc, hc⟩ := loadConfig_run h i s
  obtain ⟨program, hloadp, hp⟩ := loadProgram_run h i s
  cases config with
  | error chain =>
      rw [answer, run_bind_eq hloadc] at hrun
      cases hrun
      exact ⟨rfl, rfl, rfl⟩
  | ok c =>
      cases program with
      | error chain =>
          rw [answer, run_bind_eq hloadc, run_bind_eq hloadp] at hrun
          cases hrun
          exact ⟨rfl, rfl, rfl⟩
      | ok p =>
          rw [answer_run hloadc hloadp, finish] at hrun
          cases hresult : (c.run p).result with
          | error e =>
              rw [hresult] at hrun
              cases hrun
              exact ⟨rfl, rfl, rfl⟩
          | ok report =>
              obtain ⟨text, htext, hdecode⟩ := (hp p).mp rfl
              exact absurd
                ⟨_, c, text, p, report, (hc c).mp rfl, htext, hdecode, hresult, rfl⟩ hq

/-- A session delivers a program that it has prepared, or it fails and touches nothing.
If it fails with a program prepared, the file for it cannot be written. -/
theorem delivers_or_fails (h : files.Lawful) (hrun : (i.answer files).run s = (reply, s')) :
    (reply.exitCode = 0 ∧ ∃ q, i.Prepares (files.readAt s) q ∧
        i.Delivers files q s reply.stdout s') ∨
      reply.exitCode = 1 ∧ reply.stdout = "" ∧ s' = s ∧
        ∀ q, i.Prepares (files.readAt s) q → ∃ file fault, i.output = some file ∧
          (files.write file (i.renderProgram q)).run s = (.error fault, s') := by
  by_cases hq : ∃ q, i.Prepares (files.readAt s) q
  · obtain ⟨q, hq⟩ := hq
    obtain ⟨log, hlog⟩ := answer_of_prepares h hq
    rcases deliver_run h (hlog.symm.trans hrun) with ⟨hzero, hdelivers⟩ | ⟨hone, hstdout, hs, -⟩
    · exact Or.inl ⟨hzero, q, hq, hdelivers⟩
    · -- Any program that the session prepares is one that it fails to deliver.
      refine Or.inr ⟨hone, hstdout, hs, fun q' hq' => ?_⟩
      obtain ⟨log', hlog'⟩ := answer_of_prepares h hq'
      rcases deliver_run h (hlog'.symm.trans hrun) with ⟨hzero, -⟩ | ⟨-, -, -, hwrite⟩
      · rw [hone] at hzero
        cases hzero
      · exact hwrite
  · obtain ⟨hone, hstdout, hs⟩ := answer_of_not_prepares h hq hrun
    exact Or.inr ⟨hone, hstdout, hs, fun q' hq' => absurd ⟨q', hq'⟩ hq⟩

end

end Invocation

/-- **A session writes what it prepared, or nothing.** One that fails leaves every file
as it was and prints nothing. One that succeeds, unless its arguments asked for no
preparation, has prepared the program of its input, and the text of the prepared program
has gone to the file that was named, or to the standard output and to no file. And it
does succeed if there is such a program and the file can be written. -/
theorem session_delivers {σ : Type} {parse : List String → Except Reply Invocation}
    {files : Files (StateM σ)} (hparse : Quiet parse) (hfiles : files.Lawful)
    {args : List String} {s s' : σ} {reply : Reply}
    (h : (session parse files args).run s = (reply, s')) :
    (reply.exitCode ≠ 0 → s' = s ∧ reply.stdout = "") ∧
      ∀ i, parse args = .ok i →
        (reply.exitCode = 0 → ∃ q, i.Prepares (files.readAt s) q ∧
          i.Delivers files q s reply.stdout s') ∧
        ∀ q, i.Prepares (files.readAt s) q →
          (∀ file, i.output = some file →
            ∃ s₁, (files.write file (i.renderProgram q)).run s = (.ok (), s₁)) →
          reply.exitCode = 0 := by
  rw [session] at h
  cases hargs : parse args with
  | error ending =>
      rw [hargs] at h
      cases h
      exact ⟨fun hexit => ⟨rfl, hparse args reply hargs hexit⟩, fun i hi => by cases hi⟩
  | ok i =>
      rw [hargs] at h
      have hcases := Invocation.delivers_or_fails hfiles h
      refine ⟨fun hexit => ?_, fun j hj => ?_⟩
      · obtain ⟨hzero, -⟩ | ⟨-, hstdout, hs, -⟩ := hcases
        · exact absurd hzero hexit
        · exact ⟨hs, hstdout⟩
      · cases hj
        obtain ⟨hzero, hdelivers⟩ | ⟨hone, -, -, hfails⟩ := hcases
        · exact ⟨fun _ => hdelivers, fun _ _ _ => hzero⟩
        · refine ⟨fun hzero => ?_, fun q hq hwritable => ?_⟩
          · rw [hone] at hzero
            cases hzero
          · obtain ⟨file, fault, hfile, hwrite⟩ := hfails q hq
            obtain ⟨s₁, hwritten⟩ := hwritable file hfile
            rw [hwrite] at hwritten
            cases hwritten

/-- A working directory with a program in it, which declares its entry function. -/
def waking : FileTree :=
  .ofFiles [("waking.json", "\x7b\"name\": \"waking\", \"functions\": "
    ++ "[\x7b\"name\": \"main\", \"ret_ty\": \"void\"\x7d]\x7d")]

theorem run_session_eq (t : FileTree) (args : List String) :
    (session Arguments.parse FileTree.system args).run t =
      ((runIn t args).1, (runIn t args).2) := rfl

theorem session_delivers_waking :
    let args (file : String) := ["--emit=text", "-o", file, "waking.json"]
    let i : Invocation := { input := "waking.json", output := some "woken", emit := .text }
    Quiet Arguments.parse ∧ FileTree.system.Lawful ∧
      Arguments.parse (args "woken") = .ok i ∧
      (runIn waking (args "woken")).1.exitCode = 0 ∧
      (runIn waking (args "woken")).1.stdout = "" ∧
      (∃ q, i.Prepares waking.read q ∧
        (runIn waking (args "woken")).2.read "woken" = .ok (i.renderProgram q)) ∧
      (runIn waking (args "woken")).2.read "woken" =
        .ok ("; module 'waking'\n@__ai_init_functions = internal constant [1 x i8*] "
          ++ "[bitcast (@main to i8*)]\n\ndeclare void @main()\n") ∧
      (runIn waking (args "bed/woken")).1.exitCode = 1 ∧
      (runIn waking (args "bed/woken")).2 = waking := by
  intro args i
  have hargs : Arguments.parse (args "woken") = .ok i := eq_ok_of_toOption (by decide +kernel)
  have hzero : (runIn waking (args "woken")).1.exitCode = 0 := by decide +kernel
  have hone : (runIn waking (args "bed/woken")).1.exitCode = 1 := by decide +kernel
  have happroach : waking.approach "woken" = .ok (⟨.here, []⟩, some "woken") :=
    eq_ok_of_toOption (by decide +kernel)
  have hplain : ¬ waking.LeadsTo "woken" FileTree.nullDevice := by
    rintro ⟨dir, step, h, hnull⟩
    rw [happroach] at h
    cases h
    cases hnull
  obtain ⟨q, hq, -, hstored, hstdout⟩ := ((session_delivers Arguments.quiet_parse
    FileTree.system_lawful (run_session_eq waking (args "woken"))).2 i hargs).1 hzero
  have hsame := (session_delivers Arguments.quiet_parse FileTree.system_lawful
    (run_session_eq waking (args "bed/woken"))).1 (by rw [hone]; decide)
  rw [FileTree.system_readAt] at hq hstored
  exact ⟨Arguments.quiet_parse, FileTree.system_lawful, hargs, hzero, hstdout,
    ⟨q, hq, hstored (FileTree.system_stores hplain)⟩, eq_ok_of_toOption (by decide +kernel), hone,
    hsame.1⟩

end CommandLine

end ClosedWorld
