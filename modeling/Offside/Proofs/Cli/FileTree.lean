import Offside.Cli.FileTree
import Offside.Proofs.Diagnostic
import Offside.Proofs.Text.Lines

/-! The files of a system. What a path leads to is among them, and a file that is written changes
alone. -/
namespace Offside.Cli

open Text

variable {t t' : FileTree} {path : Text} {place p names steps : List Text} {bytes old : Bytes}

/-- One file has other bytes, and all others are as they were. -/
structure FileTree.Rewrites (t t' : FileTree) (place : List Text) (bytes : Bytes) : Prop where
  here : t'.here = t.here
  directories : t'.directories = t.directories
  /-- No file comes or goes. -/
  places : t'.files.map Prod.fst = t.files.map Prod.fst
  there : t'.files.lookup place = some bytes
  elsewhere : ∀ p, p ≠ place → t'.files.lookup p = t.files.lookup p

namespace FileTree

theorem lookup_of_found? (h : t.found? names = some (.file place bytes)) :
    t.files.lookup place = some bytes := by
  unfold found? at h
  split at h
  · next b hlookup =>
    cases h
    exact hlookup
  · split at h <;> cases h

/-- A file that steps lead to is among the files, under the names of its place. -/
theorem lookup_of_follow (h : t.follow names steps = .ok (.file place bytes)) :
    t.files.lookup place = some bytes := by
  induction steps generalizing names with
  | nil =>
    rw [follow] at h
    cases hfound : t.found? names with
    | none => simp [hfound] at h
    | some found =>
      rw [hfound] at h
      cases h
      exact lookup_of_found? hfound
  | cons step steps ih =>
    rw [follow] at h
    split at h
    · cases h
    · cases h
    · split at h
      · exact ih h
      · split at h
        · cases h
        · exact ih h

/-- A file that a path leads to is among the files. -/
theorem lookup_of_find (h : t.find path = .ok (.file place bytes)) :
    t.files.lookup place = some bytes := by
  obtain ⟨u, -, h⟩ := eq_ok_of_bind h
  exact lookup_of_follow h

/-! ## The current directory -/

/-- A step of a path that leads down by its name. -/
structure IsStep (step : Text) : Prop where
  ne_nil : step ≠ []
  ne_here : step ≠ ['.']
  ne_up : step ≠ ['.', '.']
  slash : '/' ∉ step
  short : FilePath.isTooLong step = false

/-- Names that are steps are found again in the path that they are joined to. -/
theorem steps_join (h : ∀ step ∈ steps, IsStep step) :
    FilePath.steps ('/' :: FilePath.join steps) = steps := by
  have hkeep : steps.filter (fun s => !s.isEmpty && s != ['.']) = steps := by
    rw [List.filter_eq_self]
    intro step hstep
    simp [(h step hstep).ne_nil, (h step hstep).ne_here]
  have hsplit : splitWhen (· == '/') ('/' :: FilePath.join steps) =
      [] :: splitWhen (· == '/') (FilePath.join steps) :=
    splitWhen_append_cons (w := []) (List.forall_mem_nil _) rfl _
  rw [FilePath.steps, hsplit, List.filter_cons_of_neg (by decide)]
  by_cases hne : steps = []
  · subst hne
    rfl
  · rw [FilePath.join, splitWhen_intercalate hne fun step hstep => (h step hstep).slash, hkeep]

theorem root_join (h : ∀ step ∈ steps, IsStep step) :
    FilePath.root ('/' :: FilePath.join steps) = ['/'] := by
  cases steps with
  | nil => rfl
  | cons step steps =>
    have hstep := h step List.mem_cons_self
    obtain ⟨c, s, rfl⟩ := List.exists_cons_of_ne_nil hstep.ne_nil
    have hc : c ≠ '/' := fun hc => hstep.slash (hc ▸ List.mem_cons_self)
    have hjoin : ∃ s', FilePath.join ((c :: s) :: steps) = c :: s' := by
      cases steps <;> simp [FilePath.join, List.intercalate]
    obtain ⟨s', hs'⟩ := hjoin
    rw [hs', FilePath.root.eq_def]
    split <;> simp_all

/-- The steps to the current directory come to it. -/
theorem follow_here (h : ∀ step ∈ t.here, IsStep step)
    (hfile : ∀ names, names <+: t.here → t.files.lookup names = none) (steps : List Text) :
    t.follow [] (t.here ++ steps) = t.follow t.here steps := by
  -- The induction is on what is left of the way, with the names that have been followed.
  suffices hrest : ∀ rest names, names ++ rest = t.here →
      t.follow names (rest ++ steps) = t.follow t.here steps from hrest t.here [] rfl
  intro rest
  induction rest with
  | nil =>
    intro names hnames
    rw [← hnames, List.append_nil, List.nil_append]
  | cons step rest ih =>
    intro names hnames
    have hstep := h step (by simp [← hnames])
    have hfound : t.found? names = some .directory := by
      have hprefix : names <+: t.here := ⟨step :: rest, hnames⟩
      simp [found?, hfile names hprefix, hprefix]
    rw [List.cons_append, follow, hfound]
    simp only [beq_iff_eq, hstep.ne_up, if_false, hstep.short, Bool.false_eq_true]
    exact ih (names ++ [step]) (by simpa using hnames)

/-- A name leads to the same from the root, behind the path of the current directory, as it does
from the current directory. -/
theorem find_child_herePath (h : ∀ step ∈ t.here, IsStep step)
    (hfile : ∀ names, names <+: t.here → t.files.lookup names = none) {name : Text}
    (hname : IsStep name) (hpath : FilePath.check (FilePath.child t.herePath name) = .ok ()) :
    t.find (FilePath.child t.herePath name) = t.follow t.here [name] := by
  have hsteps : ∀ step ∈ t.here ++ [name], IsStep step := by
    intro step hstep
    rcases List.mem_append.mp hstep with hstep | hstep
    · exact h step hstep
    · exact List.mem_singleton.mp hstep ▸ hname
  have hchild : FilePath.child t.herePath name = '/' :: FilePath.join (t.here ++ [name]) := by
    rw [FilePath.child, herePath, steps_join h, root_join h]
    rfl
  rw [hchild] at hpath ⊢
  rw [find, hpath, steps_join hsteps, root_join hsteps]
  exact follow_here h hfile [name]

/-! ## Reading and writing -/

theorem read_eq_ok_iff :
    t.read path = .ok bytes ↔ ∃ place, t.find path = .ok (.file place bytes) := by
  rw [read]
  cases hfind : t.find path with
  | error e => simp [bind, Except.bind]
  | ok found =>
    cases found with
    | file place old => simp [bind, Except.bind, pure, Except.pure]
    | directory => simp [bind, Except.bind, throw, throwThe, MonadExceptOf.throw]

theorem lookup_map (g : List Text → Bytes → Bytes) (files : List (List Text × Bytes))
    (p : List Text) :
    (files.map fun (q, old) => (q, g q old)).lookup p = (files.lookup p).map (g p) := by
  induction files with
  | nil => rfl
  | cons file files ih =>
    obtain ⟨q, old⟩ := file
    rw [List.map_cons, List.lookup_cons, List.lookup_cons, ih]
    by_cases hp : p = q
    · simp [hp]
    · have hq : (p == q) = false := by simpa using hp
      simp only [hq]

/-- A file that is written changes alone. -/
theorem rewrites_write (h : t.find path = .ok (.file place old)) (bytes : Bytes) :
    t.Rewrites (t.write path bytes) place bytes := by
  have hfiles : (t.write path bytes).files =
      t.files.map fun (p, old) => (p, if p = place then bytes else old) := by
    rw [write, h]
    refine List.map_congr_left fun (p, old) _ => ?_
    by_cases hp : p = place <;> simp [hp]
  have hlookup : ∀ p, (t.write path bytes).files.lookup p =
      (t.files.lookup p).map fun old => if p = place then bytes else old := fun p => by
    rw [hfiles, ← lookup_map fun p old => if p = place then bytes else old]
  refine ⟨by rw [write, h], by rw [write, h], ?_, ?_, fun p hp => ?_⟩
  · rw [hfiles, List.map_map]
    rfl
  · rw [hlookup, lookup_of_find h]
    simp
  · rw [hlookup]
    simp [hp]

/-- It does change, unless it had these bytes. -/
theorem Rewrites.ne (h : t.Rewrites t' place bytes) (hplace : t.files.lookup place = some old)
    (hne : bytes ≠ old) : t' ≠ t := by
  rintro rfl
  rw [h.there] at hplace
  exact hne (Option.some.inj hplace)

end FileTree

end Offside.Cli
