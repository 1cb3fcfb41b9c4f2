import Offside.Proofs.Cli.Ending
import Offside.Proofs.Cli.FileTree
import Offside.Proofs.Template.Convergence
import Offside.Proofs.Text.Utf8

/-! What a run leaves of the files. Only a run that writes what it formats changes a file, it
changes that one, and a run that asks whether the file is formatted tells whether it would. -/
namespace Offside.Cli

open Text

variable {l : Libraries} {t t' : FileTree} {input file s : Text} {r : Request}
  {settings : Settings} {mode mode' : FormatMode} {place : List Text} {bytes : Bytes}

/-- A run comes to an outcome with this number and leaves these files. -/
def Leaves (l : Libraries) (t : FileTree) (input : Text) (r : Request) (code : Nat)
    (t' : FileTree) : Prop :=
  ∃ o, runIn l t input r = (.ok o, t') ∧ o.code = code

/-- What a run works on: its settings, and the place, the bytes and the text of its file. -/
structure WorksOn (l : Libraries) (t : FileTree) (input : Text) (r : Request) (settings : Settings)
    (place : List Text) (bytes : Bytes) (s : Text) : Prop where
  settled : Settled (t.world l input) r settings
  found : t.find r.command.operand = .ok (.file place bytes)
  text : ConfigFile.textOf? bytes = some s

/-- The files after something is written in one of them. -/
def FileTree.after (t : FileTree) : Option (Text × Text) → FileTree
  | none => t
  | some (path, s) => t.write path (Utf8.encode s)

@[simp] theorem FileTree.after_none (t : FileTree) : t.after none = t := rfl

@[simp] theorem FileTree.after_some (t : FileTree) (path s : Text) :
    t.after (some (path, s)) = t.write path (Utf8.encode s) := rfl

theorem runIn_of_ok {o : Outcome} (h : r.run (t.world l input) = .ok o) :
    runIn l t input r = (.ok o, t.after o.written) := by
  rw [runIn, h]
  dsimp only
  cases hwritten : o.written <;> rfl

theorem runIn_of_completes (h : Completes (t.world l input) r settings s) :
    Leaves l t input r (if r.command.complains settings s then 1 else 0)
      (t.after (r.command.written settings s)) := by
  obtain ⟨output, log, hrun⟩ := run_of_completes h
  exact ⟨_, runIn_of_ok hrun, rfl⟩

/-- A run that does not complete leaves all as it is, and does not say that all is well. -/
theorem runIn_or (l : Libraries) (t : FileTree) (input : Text) (r : Request) :
    ((runIn l t input r).2 = t ∧ ∀ t', ¬ Leaves l t input r 0 t') ∨
      ∃ settings s, Completes (t.world l input) r settings s := by
  rcases concludes (t.world l input) r with h | h | h
  · left
    rw [runIn, h]
    refine ⟨rfl, ?_⟩
    rintro t' ⟨o, ho, -⟩
    rw [runIn, h] at ho
    cases ho
  · left
    obtain ⟨log, hrun⟩ := run_of_refusal h
    rw [runIn_of_ok hrun]
    refine ⟨rfl, ?_⟩
    rintro t' ⟨o, ho, hcode⟩
    rw [runIn_of_ok hrun] at ho
    cases ho
    cases hcode
  · exact Or.inr ⟨_, _, h⟩

/-- What is to be done with a formatted template makes no difference to whether it is formatted. -/
theorem Completes.format
    (h : Completes (t.world l input) { r with command := .format file mode } settings s) :
    Completes (t.world l input) { r with command := .format file mode' } settings s := by
  obtain ⟨⟨hsettled, hs, -⟩, hfits, -⟩ := h
  refine ⟨⟨?_, ?_, ?_⟩, hfits, fun _ => rfl⟩
  · cases hsettled with
    | default h => exact .default h
    | file h => exact .file h
  · cases hs with
    | typed h => cases h
    | file _ hread htext => exact .file rfl hread htext
  · rintro e ⟨file, hcommand, -⟩
    cases hcommand

/-- A run that formats works on a file. -/
theorem Completes.exists_worksOn (h : Completes (t.world l input) r settings s)
    (hcommand : r.command = .format file mode) :
    ∃ place bytes, WorksOn l t input r settings place bytes s := by
  obtain ⟨⟨hsettled, hs, -⟩, -, -⟩ := h
  cases hs with
  | typed htyped =>
    rw [hcommand] at htyped
    cases htyped
  | @file bytes _ _ hread htext =>
    obtain ⟨place, hfind⟩ := FileTree.read_eq_ok_iff.mp hread
    exact ⟨place, bytes, hsettled, hfind, htext⟩

/-- What is written of a formatted text is read as that text. -/
theorem textOf?_encode_format (o : Layout) (s : Text) :
    ConfigFile.textOf? (Utf8.encode (format o s).text) = some (format o s).text := by
  rw [ConfigFile.textOf?, Utf8.decode?_encode, Option.map_some,
    unifyNewlines_of_not_mem (not_mem_format o s)]

/-- A file whose text is not as it is formatted gets that text, and nothing else changes. -/
theorem WorksOn.rewrites (h : WorksOn l t input r settings place bytes s) (o : Layout) :
    t.Rewrites (t.write r.command.operand (Utf8.encode (Offside.format o s).text)) place
      (Utf8.encode (Offside.format o s).text) :=
  FileTree.rewrites_write h.found _

theorem WorksOn.write_ne (h : WorksOn l t input r settings place bytes s) {o : Layout}
    (hchanged : (Offside.format o s).text ≠ s) :
    t.write r.command.operand (Utf8.encode (Offside.format o s).text) ≠ t := by
  refine (h.rewrites o).ne (FileTree.lookup_of_find h.found) fun hbytes => hchanged ?_
  have htext := h.text
  rw [← hbytes, textOf?_encode_format] at htext
  exact Option.some.inj htext

theorem changed_eq_true {f : Formatted} : f.changed s = true ↔ f.text ≠ s := by
  simp [Formatted.changed]

/-- What a run that formats and writes leaves. -/
theorem leaves_write (h : Completes (t.world l input) r settings s)
    (hcommand : r.command = .format file .write) :
    Leaves l t input r 0 (if (format settings.format s).text = s then t
      else t.write file (Utf8.encode (format settings.format s).text)) := by
  have hleaves := runIn_of_completes h
  rw [hcommand] at hleaves
  simpa only [Command.complains, Command.written, changed_eq_true, ne_eq, ite_not,
    Bool.false_eq_true, if_false, apply_ite t.after, FileTree.after_none,
    FileTree.after_some] using hleaves

/-- What a run that only asks whether a file is formatted leaves. -/
theorem leaves_check (h : Completes (t.world l input) r settings s)
    (hcommand : r.command = .format file .check) :
    Leaves l t input r (if (format settings.format s).text = s then 0 else 1) t := by
  have hleaves := runIn_of_completes h
  rw [hcommand] at hleaves
  simpa only [Command.complains, Command.written, changed_eq_true, ne_eq, ite_not,
    FileTree.after_none] using hleaves

theorem Leaves.unique {code code' : Nat} (h : Leaves l t input r code t')
    {t'' : FileTree} (h' : Leaves l t input r code' t'') : code = code' ∧ t' = t'' := by
  obtain ⟨o, ho, rfl⟩ := h
  obtain ⟨o', ho', rfl⟩ := h'
  rw [ho] at ho'
  cases ho'
  exact ⟨rfl, rfl⟩

/-- A run that changes anything writes a formatted template, and all goes well. -/
theorem leaves_of_runIn_ne (h : (runIn l t input r).2 ≠ t) :
    ∃ file, r.command = .format file .write ∧
      Leaves l t input r 0 (runIn l t input r).2 := by
  rcases runIn_or l t input r with ⟨hsame, -⟩ | ⟨settings, s, hcompletes⟩
  · exact (h hsame).elim
  · obtain ⟨o, ho, hcode⟩ := runIn_of_completes hcompletes
    have hwritten : r.command.written settings s ≠ none := by
      intro hnone
      rw [ho, hnone] at h
      exact h rfl
    obtain ⟨file, hcommand⟩ := Command.eq_format_of_written hwritten
    rw [hcommand] at hcode
    exact ⟨file, hcommand, o, by rw [ho], hcode⟩

/-- A run that formats and writes, and in which all goes well, leaves the text as it is formatted,
and does not touch a file that has it. -/
theorem exists_worksOn_of_leaves (hcommand : r.command = .format file .write)
    (h : Leaves l t input r 0 t') :
    ∃ settings place bytes s, WorksOn l t input r settings place bytes s ∧
      ((format settings.format s).text = s → t' = t) ∧
      ((format settings.format s).text ≠ s → ∃ bytes', t.Rewrites t' place bytes' ∧
        bytes' = Utf8.encode (format settings.format s).text ∧
        ConfigFile.textOf? bytes' = some (format settings.format s).text) := by
  rcases runIn_or l t input r with ⟨-, hnone⟩ | ⟨settings, s, hcompletes⟩
  · exact (hnone t' h).elim
  · obtain ⟨place, bytes, hworks⟩ := hcompletes.exists_worksOn hcommand
    obtain ⟨-, ht'⟩ := h.unique (leaves_write hcompletes hcommand)
    refine ⟨settings, place, bytes, s, hworks, fun hsame => ?_, fun hchanged => ?_⟩
    · rw [ht', if_pos hsame]
    · have hrewrites := hworks.rewrites settings.format
      rw [hcommand, Command.operand] at hrewrites
      rw [ht', if_neg hchanged]
      exact ⟨_, hrewrites, rfl, textOf?_encode_format settings.format s⟩

/-- Asking finds all well exactly if writing does and has nothing to write. -/
theorem leaves_check_iff (l : Libraries) (t : FileTree) (input : Text) (r : Request) (file : Text) :
    (∃ t', Leaves l t input { r with command := .format file .check } 0 t') ↔
      Leaves l t input { r with command := .format file .write } 0 t := by
  constructor
  · rintro ⟨t', h⟩
    rcases runIn_or l t input { r with command := .format file .check } with
      ⟨-, hnone⟩ | ⟨settings, s, hcompletes⟩
    · exact (hnone t' h).elim
    · obtain ⟨hcode, -⟩ := h.unique (leaves_check hcompletes rfl)
      have hsame : (format settings.format s).text = s := by
        by_contra hchanged
        rw [if_neg hchanged] at hcode
        cases hcode
      have hwrite := leaves_write (hcompletes.format) rfl
      rwa [if_pos hsame] at hwrite
  · intro h
    rcases runIn_or l t input { r with command := .format file .write } with
      ⟨-, hnone⟩ | ⟨settings, s, hcompletes⟩
    · exact (hnone t h).elim
    · obtain ⟨-, hd⟩ := h.unique (leaves_write hcompletes rfl)
      obtain ⟨place, bytes, hworks⟩ := hcompletes.exists_worksOn rfl
      have hsame : (format settings.format s).text = s := by
        by_contra hchanged
        rw [if_neg hchanged] at hd
        exact hworks.write_ne hchanged hd.symm
      have hcheck := leaves_check (hcompletes.format) rfl
      rw [if_pos hsame] at hcheck
      exact ⟨t, hcheck⟩

/-- What a run leaves of the files. If anything changes, a template was formatted and written, and
all went well. Then the file that was named holds its text as it is formatted, and it is not touched
if it was so before. Whether it would be touched can be asked. -/
theorem runIn_frame (l : Libraries) (t : FileTree) (input : Text) (r : Request) :
    ((runIn l t input r).2 ≠ t → ∃ file, r.command = .format file .write ∧
        Leaves l t input r 0 (runIn l t input r).2) ∧
      (∀ file t', r.command = .format file .write → Leaves l t input r 0 t' →
        ∃ settings place bytes s, WorksOn l t input r settings place bytes s ∧
          ((format settings.format s).text = s → t' = t) ∧
          ((format settings.format s).text ≠ s → ∃ bytes', t.Rewrites t' place bytes' ∧
            bytes' = Utf8.encode (format settings.format s).text ∧
            ConfigFile.textOf? bytes' = some (format settings.format s).text)) ∧
      ∀ file, (∃ t', Leaves l t input { r with command := .format file .check } 0 t') ↔
        Leaves l t input { r with command := .format file .write } 0 t :=
  ⟨leaves_of_runIn_ne, fun _ _ hcommand h => exists_worksOn_of_leaves hcommand h,
    leaves_check_iff l t input r⟩

/-- A directory with a template whose last line is not ended, and with another one. -/
def looseDirectory : FileTree where
  here := ["home".toList]
  directories := []
  files := [(["home".toList, "a.collie".toList], Utf8.encode ['p']),
    (["home".toList, "b.collie".toList], Utf8.encode ['q'])]

/-- The template is written anew, and asking beforehand tells so. -/
theorem runIn_frame_looseDirectory :
    (runIn .own looseDirectory [] ⟨false, none, .format "a.collie".toList .write⟩).2.files =
        [(["home".toList, "a.collie".toList], Utf8.encode ['p', '\n']),
          (["home".toList, "b.collie".toList], Utf8.encode ['q'])] ∧
      ¬ ∃ t', Leaves .own looseDirectory []
        ⟨false, none, .format "a.collie".toList .check⟩ 0 t' := by
  have hfiles :
      (runIn .own looseDirectory [] ⟨false, none, .format "a.collie".toList .write⟩).2.files =
        [(["home".toList, "a.collie".toList], Utf8.encode ['p', '\n']),
          (["home".toList, "b.collie".toList], Utf8.encode ['q'])] := by decide +kernel
  refine ⟨hfiles, fun hcheck => ?_⟩
  obtain ⟨o, ho, -⟩ := ((runIn_frame .own looseDirectory []
    ⟨false, none, .format "a.collie".toList .write⟩).2.2 "a.collie".toList).mp hcheck
  have hloose : looseDirectory.files ≠
      [(["home".toList, "a.collie".toList], Utf8.encode ['p', '\n']),
        (["home".toList, "b.collie".toList], Utf8.encode ['q'])] := by decide +kernel
  rw [ho] at hfiles
  exact hloose hfiles

end Offside.Cli
