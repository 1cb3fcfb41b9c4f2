import Offside.Proofs.Cli.Command

/-! How a run ends. A run comes to an outcome or is refused with a message that tells the user what
to mend; what the files hold decides which. A run that does neither fails over something that it
does not expect, such as bytes that are no text. -/
namespace Offside.Cli

open Text

variable {w : World} {r : Request} {settings : Settings} {c : Command} {directory name s : Text}
  {names : List Text} {bytes : Bytes} {answer : Except FileError Bool} {log : List Message}

/-! ## The configuration -/

/-- The system says that a path leads to no file. -/
def deniesFile : Except FileError Bool → Bool
  | .ok there => !there
  | .error e => e.meansNoFile

theorem eq_of_deniesFile_eq_false (h : deniesFile answer = false) :
    answer = .ok true ∨ ∃ e : FileError, answer = .error e ∧ e.meansNoFile = false := by
  cases answer with
  | ok there => exact Or.inl (by simpa [deniesFile] using h)
  | error e => exact Or.inr ⟨e, rfl, h⟩

namespace World

/-- None of the names is that of a file. -/
def Lacks (w : World) (directory : Text) (names : List Text) : Prop :=
  ∀ name ∈ names, deniesFile (w.isFile (FilePath.child directory name)) = true

/-- The first of the names that is not passed over, and what the system says about it. -/
def Meets (w : World) (directory : Text) (names : List Text) (name : Text)
    (answer : Except FileError Bool) : Prop :=
  ∃ before after, names = before ++ name :: after ∧ w.Lacks directory before ∧
    w.isFile (FilePath.child directory name) = answer ∧ deniesFile answer = false

/-- Some name is the first that is not passed over, unless all are. -/
theorem lacks_or_meets (w : World) (directory : Text) (names : List Text) :
    w.Lacks directory names ∨ ∃ name answer, w.Meets directory names name answer := by
  induction names with
  | nil => exact Or.inl (by simp [Lacks])
  | cons name names ih =>
    cases hname : deniesFile (w.isFile (FilePath.child directory name)) with
    | false => exact Or.inr ⟨name, _, [], names, rfl, by simp [Lacks], rfl, hname⟩
    | true =>
      rcases ih with h | ⟨k, answer, before, after, rfl, hlacks, hk⟩
      · exact Or.inl (List.forall_mem_cons.mpr ⟨hname, h⟩)
      · exact Or.inr ⟨k, answer, name :: before, after, rfl,
          List.forall_mem_cons.mpr ⟨hname, hlacks⟩, hk⟩

end World

/-- What is no file is passed over. -/
theorem firstFile_append {before : List Text} (h : w.Lacks directory before) (names : List Text) :
    firstFile w directory (before ++ names) = firstFile w directory names := by
  induction before with
  | nil => rfl
  | cons name before ih =>
    obtain ⟨hname, h⟩ := List.forall_mem_cons.mp h
    rw [List.cons_append, firstFile]
    split
    · next hfile => simp [hfile, deniesFile] at hname
    · exact ih h
    · next e herror =>
      rw [herror, deniesFile] at hname
      rw [if_pos hname]
      exact ih h

theorem firstFile_of_lacks (h : w.Lacks directory names) (log : List Message) :
    firstFile w directory names log = .ok (none, log) := by
  have happend := firstFile_append h []
  rw [List.append_nil] at happend
  rw [happend]
  rfl

theorem firstFile_of_meets_file (h : w.Meets directory names name (.ok true))
    (log : List Message) : firstFile w directory names log = .ok (some name, log) := by
  obtain ⟨before, after, rfl, hlacks, hname, -⟩ := h
  rw [firstFile_append hlacks, firstFile]
  simp only [hname]
  rfl

theorem firstFile_of_meets_error {e : FileError} (h : w.Meets directory names name (.error e))
    (log : List Message) : firstFile w directory names log = .error (.inl
      ⟨2, [], log ++ [.plain (e.message (FilePath.child directory name) ++ ['\n'])], none⟩) := by
  obtain ⟨before, after, rfl, hlacks, hname, he⟩ := h
  rw [deniesFile] at he
  rw [firstFile_append hlacks, firstFile]
  simp only [hname, he]
  rfl

/-- The directory that the configuration of a run lies in. -/
def World.root (w : World) (r : Request) : Text := FilePath.normalize (r.configRoot.getD w.here)

/-- The name of the configuration file of a run. -/
def World.Configures (w : World) (r : Request) (name : Text) : Prop :=
  w.Meets (w.root r) ConfigFile.names name (.ok true)

/-- The path of the configuration file of a run, if it has this name. -/
def World.configPath (w : World) (r : Request) (name : Text) : Text :=
  FilePath.child (w.root r) name

/-- What a run gets from its configuration file. -/
def World.Loads (w : World) (r : Request) (name : Text)
    (result : Except ConfigFile.Error Settings) : Prop :=
  w.Configures r name ∧ ∃ bytes, w.read (w.configPath r name) = .ok bytes ∧
    ConfigFile.readWith w.libraries.data bytes = result

/-- The settings of a run. -/
inductive Settled (w : World) (r : Request) : Settings → Prop
  | default : w.Lacks (w.root r) ConfigFile.names → Settled w r {}
  | file {name : Text} {settings : Settings} : w.Loads r name (.ok settings) →
      Settled w r settings

/-- The text that a command works on. -/
inductive Supplied (w : World) (c : Command) : Text → Prop
  | typed : c.isTyped = true → Supplied w c (unifyNewlines w.input)
  | file {bytes : Bytes} {s : Text} : c.isTyped = false → w.read c.operand = .ok bytes →
      ConfigFile.textOf? bytes = some s → Supplied w c s

/-- A command has its settings, and a text that it can import if it is to. -/
structure Starts (w : World) (r : Request) (settings : Settings) (s : Text) : Prop where
  settled : Settled w r settings
  supplied : Supplied w r.command s
  accepts : ∀ e, ¬ r.command.Refuses w.libraries s e

/-- The lines that a command lays out for a text can be indented. -/
def Fits (w : World) (r : Request) (settings : Settings) (s : Text) : Prop :=
  ∀ size ∈ r.command.indent? w.libraries settings s, checkIndent size = .ok ()

/-- What the user is told to mend. -/
inductive Refusal (w : World) (r : Request) : Text → Prop
  /-- The system does not say whether there is a configuration. -/
  | configPath {name : Text} {e : FileError} :
      w.Meets (w.root r) ConfigFile.names name (.error e) →
      Refusal w r (e.message (w.configPath r name))
  /-- The configuration cannot be read. -/
  | configFile {name : Text} {e : FileError} : w.Configures r name →
      w.read (w.configPath r name) = .error e → e ≠ .unnameable →
      Refusal w r (e.message (w.configPath r name))
  | configForm {name : Text} : w.Loads r name (.error (.notData .malformed)) →
      Refusal w r (ConfigFile.malformedMessage name)
  | configValue {name m : Text} {e : ConfigError} : w.Loads r name (.error (.config e)) →
      e.message? = some m → Refusal w r m
  /-- The file cannot be read. -/
  | file {settings : Settings} {e : FileError} : Settled w r settings →
      r.command.isTyped = false → w.read r.command.operand = .error e → e ≠ .unnameable →
      Refusal w r (e.message (FilePath.normalize r.command.operand))
  | selection {settings : Settings} {s : Text} {e : Markup.SelectionError} : Settled w r settings →
      Supplied w r.command s → r.command.Refuses w.libraries s e → Refusal w r e.message
  /-- The file cannot be written. -/
  | write {settings : Settings} {s : Text} {e : FileError} : Starts w r settings s →
      Fits w r settings s → r.command.written settings s ≠ none →
      w.canWrite r.command.operand = .error e → e ≠ .unnameable →
      Refusal w r (e.message (FilePath.normalize r.command.operand))

/-- Nothing stands in the way of a run. -/
structure Completes (w : World) (r : Request) (settings : Settings) (s : Text) : Prop extends
    Starts w r settings s where
  fits : Fits w r settings s
  canWrite : r.command.written settings s ≠ none → w.canWrite r.command.operand = .ok ()

/-- What a run crashes over, although the user could mend it. -/
inductive Crash (w : World) (r : Request) : Failure → Prop
  /-- The bytes of the configuration are no text. -/
  | configText {name : Text} : w.Loads r name (.error .notText) → Crash w r .notText
  /-- The loader meets a fault that it does not announce. -/
  | configData {name : Text} {fault : Yaml.Fault} : w.Loads r name (.error (.notData fault)) →
      fault ≠ .malformed → Crash w r (.badData fault)
  /-- The configuration has a fault whose report would show a number that cannot be written. -/
  | configFault {name : Text} {e : ConfigError} : w.Loads r name (.error (.config e)) →
      e.message? = none → Crash w r .untellable
  /-- The path of the file has a character that no path has. -/
  | path {settings : Settings} : Settled w r settings → r.command.isTyped = false →
      w.read r.command.operand = .error .unnameable → Crash w r .unnameable
  /-- The bytes of the file are no text. -/
  | text {settings : Settings} {bytes : Bytes} : Settled w r settings →
      r.command.isTyped = false → w.read r.command.operand = .ok bytes →
      ConfigFile.textOf? bytes = none → Crash w r .notText
  /-- The configuration asks for an indent that cannot be counted. -/
  | indent {settings : Settings} {s : Text} {size : Int} : Settled w r settings →
      Supplied w r.command s → r.command.indent? w.libraries settings s = some size →
      checkIndent size = .error .uncountable → Crash w r (r.command.indentFailure .uncountable)

/-! ## Runs -/

/-- How the reading of a configuration file ends. -/
def configEnd (name : Text) (log : List Message) :
    Except ConfigFile.Error Settings → Except (Outcome ⊕ Failure) (Settings × List Message)
  | .ok settings => .ok (settings, log)
  | .error .notText => .error (.inr .notText)
  | .error (.notData .malformed) =>
    .error (.inl ⟨2, [], log ++ [.plain (ConfigFile.malformedMessage name ++ ['\n'])], none⟩)
  | .error (.notData fault) => .error (.inr (.badData fault))
  | .error (.config e) =>
    match e.message? with
    | none => .error (.inr .untellable)
    | some m =>
      .error (.inl ⟨2, [], log ++ [.debug ("RAISE at ".toList ++ m), .plain (m ++ ['\n'])], none⟩)

/-- Settings are read as the configuration file that is found says. -/
theorem readSettings_of_loads {result : Except ConfigFile.Error Settings}
    (h : w.Loads r name result) :
    ∃ log, readSettings w r.configRoot [] = configEnd name log result := by
  obtain ⟨hname, bytes, hread, rfl⟩ := h
  have hfirst : firstFile w (FilePath.normalize (r.configRoot.getD w.here)) ConfigFile.names [] =
      .ok (some name, []) := firstFile_of_meets_file hname []
  refine ⟨[.debug ("Loading config from ".toList ++ w.configPath r name)], ?_⟩
  generalize hresult : ConfigFile.readWith w.libraries.data bytes = result
  rw [World.configPath, World.root] at hread
  rw [readSettings, bind_of_ok hfirst]
  simp only [hread, hresult, fromSystem, bind, Run.bind, Run.pure, Run.say]
  rcases result with (_ | fault | e) | settings
  · rfl
  · cases fault <;> rfl
  · simp only [configEnd]
    cases e.message? <;> rfl
  · rfl

theorem readSettings_of_unread {e : FileError} (h : w.Configures r name)
    (hread : w.read (w.configPath r name) = .error e) :
    ∃ log, readSettings w r.configRoot [] = .error (refusedEnd (w.configPath r name) log e) := by
  have hfirst : firstFile w (FilePath.normalize (r.configRoot.getD w.here)) ConfigFile.names [] =
      .ok (some name, []) := firstFile_of_meets_file h []
  refine ⟨[.debug ("Loading config from ".toList ++ w.configPath r name)], ?_⟩
  rw [World.configPath, World.root] at hread
  rw [readSettings, bind_of_ok hfirst]
  simp only [hread, bind, Run.bind, Run.say, fromSystem_error]
  rfl

theorem exists_settings (h : Settled w r settings) :
    ∃ log, readSettings w r.configRoot [] = .ok (settings, log) := by
  cases h with
  | default h =>
    have hfirst := firstFile_of_lacks h []
    exact ⟨_, bind_of_ok hfirst⟩
  | file h => exact readSettings_of_loads h

theorem input_of_supplied (h : Supplied w c s) (log : List Message) :
    c.input w log = .ok (s, log) := by
  rw [Command.input]
  cases h with
  | typed htyped =>
    rw [if_pos htyped]
    rfl
  | file htyped hread htext =>
    rw [if_neg (by simp [htyped]), readText]
    simp only [hread, fromSystem, bind, Run.bind, Run.pure, htext]
    rfl

theorem run_of_settled (h : Settled w r settings) :
    ∃ log, runRequest w r [] = r.command.run w settings log := by
  obtain ⟨log, hlog⟩ := exists_settings h
  exact ⟨log, bind_of_ok hlog⟩

/-- Without a text the run ends as the attempt to get it does. -/
theorem run_of_unread (h : Settled w r settings) {e : List Message → Outcome ⊕ Failure}
    (htyped : r.command.isTyped = false)
    (he : ∀ log, readText w r.command.operand log = .error (e log)) :
    ∃ log, runRequest w r [] = .error (e log) := by
  obtain ⟨log, hrun⟩ := run_of_settled h
  have hinput : r.command.input w log = .error (e log) := by
    rw [Command.input, if_neg (by simp [htyped]), he log]
  exact ⟨log, by rw [hrun, Command.run_of_input_error hinput]⟩

/-- A run whose lines cannot be indented fails. -/
theorem run_of_unfit {size : Int} {e : IndentError} (hsettled : Settled w r settings)
    (hs : Supplied w r.command s) (hsize : r.command.indent? w.libraries settings s = some size)
    (he : checkIndent size = .error e) :
    runRequest w r [] = .error (.inr (r.command.indentFailure e)) := by
  obtain ⟨log, hrun⟩ := run_of_settled hsettled
  rw [hrun, Command.run_of_indentError (input_of_supplied hs log) hsize he]

/-- A run that cannot write what it formats ends as the attempt does. -/
theorem run_of_unwritten {e : FileError} (h : Starts w r settings s) (hfits : Fits w r settings s)
    (hwritten : r.command.written settings s ≠ none)
    (he : w.canWrite r.command.operand = .error e) :
    ∃ log, runRequest w r [] =
      .error (refusedEnd (FilePath.normalize r.command.operand) log e) := by
  obtain ⟨log, hrun⟩ := run_of_settled h.settled
  obtain ⟨log', hend⟩ :=
    Command.run_of_refused (input_of_supplied h.supplied log) hfits hwritten he
  exact ⟨log', hrun.trans hend⟩

/-- A run over which nothing stands comes to an outcome of its command. -/
theorem run_of_completes (h : Completes w r settings s) : ∃ output log, r.run w = .ok
    ⟨if r.command.complains settings s then 1 else 0, output, log,
      r.command.written settings s⟩ := by
  obtain ⟨log, hrun⟩ := run_of_settled h.settled
  obtain ⟨output, log', hends⟩ :=
    Command.ends (input_of_supplied h.supplied log) h.accepts h.fits h.canWrite
  refine ⟨output, log', ?_⟩
  rw [Request.run, hrun, hends]

theorem run_of_failure {f : Failure} (h : runRequest w r [] = .error (.inr f)) :
    r.run w = .error f := by
  rw [Request.run, h]

/-- A run with a reason to crash crashes over it. -/
theorem run_of_crash {f : Failure} (h : Crash w r f) : r.run w = .error f := by
  have hconfig : ∀ {name result}, w.Loads r name result →
      (∀ log, configEnd name log result = .error (.inr f)) → r.run w = .error f := by
    intro name result hloads hend
    obtain ⟨log, hlog⟩ := readSettings_of_loads hloads
    exact run_of_failure (bind_of_error (hlog.trans (hend log)))
  cases h with
  | configText hloads => exact hconfig hloads fun log => rfl
  | @configData _ fault hloads hfault =>
    refine hconfig hloads fun log => ?_
    cases fault with
    | malformed => exact (hfault rfl).elim
    | _ => rfl
  | configFault hloads hm => exact hconfig hloads fun log => by rw [configEnd, hm]
  | path hsettled htyped hread =>
    obtain ⟨log, hrun⟩ := run_of_unread hsettled htyped (readText_of_error hread)
    exact run_of_failure hrun
  | text hsettled htyped hread htext =>
    have hfail : ∀ log, readText w r.command.operand log = .error (.inr .notText) := fun log => by
      rw [readText, hread]
      simp only [fromSystem, bind, Run.bind, Run.pure, htext]
      rfl
    obtain ⟨-, hrun⟩ := run_of_unread hsettled htyped hfail
    exact run_of_failure hrun
  | indent hsettled hs hsize he => exact run_of_failure (run_of_unfit hsettled hs hsize he)

/-- Whatever is refused is said, and the run ends with the code for it. -/
theorem run_of_refusal {m : Text} (h : Refusal w r m) :
    ∃ log, r.run w = .ok ⟨2, [], log ++ [.plain (m ++ ['\n'])], none⟩ := by
  have hstop : ∃ log, runRequest w r [] =
      .error (.inl ⟨2, [], log ++ [.plain (m ++ ['\n'])], none⟩) := by
    cases h with
    | configPath h => exact ⟨[], bind_of_error (bind_of_error (firstFile_of_meets_error h []))⟩
    | configFile h hread he =>
      obtain ⟨log, hlog⟩ := readSettings_of_unread h hread
      exact ⟨log, bind_of_error (hlog.trans (by rw [refusedEnd_of_ne he]))⟩
    | configForm h =>
      obtain ⟨log, hlog⟩ := readSettings_of_loads h
      exact ⟨log, bind_of_error hlog⟩
    | configValue h hm =>
      obtain ⟨log, hlog⟩ := readSettings_of_loads h
      refine ⟨log ++ [.debug ("RAISE at ".toList ++ m)], bind_of_error (hlog.trans ?_)⟩
      rw [configEnd, hm]
      simp only [List.append_assoc, List.cons_append, List.nil_append]
    | file hsettled htyped hread he =>
      obtain ⟨log, hrun⟩ := run_of_unread hsettled htyped (readText_of_error hread)
      exact ⟨log, by rw [hrun, refusedEnd_of_ne he]⟩
    | selection hsettled hs he =>
      obtain ⟨log, hrun⟩ := run_of_settled hsettled
      exact ⟨log, by rw [hrun, Command.run_of_refuses (input_of_supplied hs log) he]⟩
    | write hstarts hfits hwritten hwrite he =>
      obtain ⟨log, hrun⟩ := run_of_unwritten hstarts hfits hwritten hwrite
      exact ⟨log, by rw [hrun, refusedEnd_of_ne he]⟩
  obtain ⟨log, hstop⟩ := hstop
  exact ⟨log, by rw [Request.run, hstop]⟩

/-! ## The ends of a run -/

/-- A run fails, is refused, or completes. -/
inductive Concludes (w : World) (r : Request) : Prop
  | fails {f : Failure} : r.run w = .error f → Concludes w r
  | refused {m : Text} : Refusal w r m → Concludes w r
  | completes {settings : Settings} {s : Text} : Completes w r settings s → Concludes w r

/-- A run that nothing stops ends as its command does. -/
theorem Starts.concludes (h : Starts w r settings s) : Concludes w r := by
  by_cases hfits : Fits w r settings s
  · by_cases hwritten : r.command.written settings s = none
    · exact .completes ⟨h, hfits, fun hne => (hne hwritten).elim⟩
    cases hwrite : w.canWrite r.command.operand with
    | ok u => exact .completes ⟨h, hfits, fun _ => hwrite⟩
    | error e =>
      by_cases he : e = .unnameable
      · subst he
        obtain ⟨log, hrun⟩ := run_of_unwritten h hfits hwritten hwrite
        exact .fails (run_of_failure hrun)
      · exact .refused (.write h hfits hwritten hwrite he)
  · simp only [Fits, not_forall] at hfits
    obtain ⟨size, hsize, hne⟩ := hfits
    cases he : checkIndent size with
    | ok u => exact (hne he).elim
    | error e => exact .fails (run_of_failure (run_of_unfit h.settled h.supplied hsize he))

theorem Supplied.concludes (hs : Supplied w r.command s) (h : Settled w r settings) :
    Concludes w r := by
  by_cases hrefuses : ∃ e, r.command.Refuses w.libraries s e
  · obtain ⟨e, he⟩ := hrefuses
    exact .refused (.selection h hs he)
  · exact Starts.concludes ⟨h, hs, not_exists.mp hrefuses⟩

theorem Settled.concludes (h : Settled w r settings) : Concludes w r := by
  cases htyped : r.command.isTyped with
  | true => exact Supplied.concludes (.typed htyped) h
  | false =>
    cases hread : w.read r.command.operand with
    | error e =>
      by_cases he : e = .unnameable
      · exact .fails (run_of_crash (.path h htyped (he ▸ hread)))
      · exact .refused (.file h htyped hread he)
    | ok bytes =>
      cases htext : ConfigFile.textOf? bytes with
      | none => exact .fails (run_of_crash (.text h htyped hread htext))
      | some s => exact Supplied.concludes (.file htyped hread htext) h

theorem World.Loads.concludes {result : Except ConfigFile.Error Settings}
    (h : w.Loads r name result) : Concludes w r := by
  rcases result with (_ | fault | e) | settings
  · exact .fails (run_of_crash (.configText h))
  · by_cases hfault : fault = .malformed
    · exact .refused (.configForm (hfault ▸ h))
    · exact .fails (run_of_crash (.configData h hfault))
  · cases hm : e.message? with
    | none => exact .fails (run_of_crash (.configFault h hm))
    | some m => exact .refused (.configValue h hm)
  · exact Settled.concludes (.file h)

/-- A run is refused, or crashes, or goes on to its command. -/
theorem concludes (w : World) (r : Request) : Concludes w r := by
  rcases w.lacks_or_meets (w.root r) ConfigFile.names with h | ⟨name, answer, h⟩
  · exact Settled.concludes (.default h)
  have hdenies := h
  obtain ⟨-, -, -, -, -, hdenies⟩ := hdenies
  rcases eq_of_deniesFile_eq_false hdenies with rfl | ⟨e, rfl, -⟩
  · cases hread : w.read (w.configPath r name) with
    | ok bytes => exact World.Loads.concludes ⟨h, bytes, hread, rfl⟩
    | error e =>
      by_cases he : e = .unnameable
      · obtain ⟨log, hlog⟩ := readSettings_of_unread h hread
        exact .fails (run_of_failure (f := .unnameable) (bind_of_error (by rw [hlog, he]; rfl)))
      · exact .refused (.configFile h hread he)
  · exact .refused (.configPath h)

end Offside.Cli
