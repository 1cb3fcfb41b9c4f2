import Mathlib.Data.Set.Card
import Offside.Proofs.Document.Cache
import Offside.Proofs.Document.Memory

/-! The cache keeps what the memory remembers. Its list of documents and its index are changed apart
from each other; that both stay in step with one map is shown here for each action and then for
every run of actions. -/
namespace Offside.Document.Cache

variable {c d : Cache} {m : Memory} {a : Action} {as : List Action} {uri text : Text}
  {version : Int}

/-- The cache after an action. A document that is read and has no id fails. -/
def act (c : Cache) : Action → Except AddressError Cache
  | .get uri version text =>
    match c.get uri version text with
    | (d, .ok _) => .ok d
    | (_, .error err) => .error err
  | .invalidate uri => .ok (c.invalidate uri)
  | .clear => .ok c.clear

/-- A new cache after some actions, of which none fails. -/
def run (as : List Action) : Except AddressError Cache := as.foldlM act empty

/-- What a run leaves, from a value that can be computed of it. -/
theorem exists_run {β : Type} {f : Cache → β} {b : β} (h : (run as).toOption.map f = some b) :
    ∃ c, run as = .ok c ∧ f c = b := by
  cases hrun : run as with
  | error err =>
    rw [hrun] at h
    cases h
  | ok c =>
    rw [hrun] at h
    exact ⟨c, rfl, Option.some.inj h⟩

/-- The cache holds what the memory remembers and nothing else, and its index goes with it. -/
structure Refines (c : Cache) (m : Memory) : Prop where
  readings : c.readings = m.readings
  found : ∀ uri, c.find? uri = (m.at? uri).map (Held.stored uri)
  single : (c.documents.map Stored.uri).Nodup
  past : m.Past
  indexed : m.Indexed c.index

theorem refines_empty : empty.Refines Memory.empty := by
  refine ⟨rfl, fun _ => rfl, List.nodup_nil, ?_, Memory.indexed_empty Memory.empty⟩
  intro uri h hh
  cases hh

theorem Refines.clear (h : c.Refines m) : c.clear.Refines (m.step .clear) := by
  refine ⟨h.readings, fun _ => rfl, List.nodup_nil, ?_, Memory.indexed_empty _⟩
  intro uri g hg
  cases hg

theorem Refines.invalidate (h : c.Refines m) (uri : Text) :
    (c.invalidate uri).Refines (m.forget uri) := by
  refine ⟨h.readings, ?_, ?_, h.past.forget uri, h.indexed.forget uri⟩
  · intro u
    by_cases hu : u = uri
    · rw [hu, find?_invalidate_self, Memory.forget_self]
      rfl
    · rw [find?_invalidate c hu, Memory.forget_at? hu, h.found]
  · exact h.single.sublist (List.filter_sublist.map _)

theorem Refines.held_of_find (h : c.Refines m) {s : Stored} (hs : c.find? uri = some s) :
    ∃ g, m.at? uri = some g ∧ s = g.stored uri := by
  rw [h.found] at hs
  obtain ⟨g, hg, rfl⟩ := Option.map_eq_some_iff.mp hs
  exact ⟨g, hg, rfl⟩

theorem Refines.step_kept (h : c.Refines m) {s : Stored} (hs : c.find? uri = some s)
    (text : Text) : m.step (.get uri s.version text) = m := by
  obtain ⟨g, hg, rfl⟩ := h.held_of_find hs
  simp [Memory.step, hg, Held.stored]

theorem Refines.step_lacks (h : c.Refines m) (hlacks : c.Lacks uri version) (text : Text) :
    m.step (.get uri version text) = m.remember uri version text := by
  rw [Lacks, h.found] at hlacks
  rw [Memory.step]
  cases hg : m.at? uri with
  | none => rfl
  | some g =>
    rw [hg] at hlacks
    have hversion : g.version ≠ version := hlacks _ rfl
    simp [hversion]

/-- A document that was read and filed. The entry goes into the index that the document was left out
of before, so that there is no other one. -/
theorem Refines.filed (h : c.Refines m) {e : IdEntry}
    (he : idEntry uri (Template.read text) = .ok e) :
    Refines { (c.read uri version text).1 with index := (c.index.without uri).file e }
      (m.remember uri version text) := by
  obtain ⟨rfl, hdescribes⟩ := idEntry_describes he
  have hforgotten := h.invalidate e.uri
  rw [← Memory.remember_forget]
  refine ⟨?_, ?_, ?_, hforgotten.past.remember _ _ _, ?_⟩
  · exact congrArg (· + 1) h.readings
  · intro u
    by_cases hu : u = e.uri
    · have hfound := find?_read_self c e.uri version text
      rw [hu, Memory.remember_self, Option.map_some]
      rw [h.readings] at hfound
      exact hfound
    · have hfound := find?_read c version text hu
      rw [Memory.remember_at? hu, Memory.forget_at? hu, ← h.found]
      exact hfound
  · have hfresh : e.uri ∉ (c.invalidate e.uri).documents.map Stored.uri := by
      intro hmem
      obtain ⟨s, hs, huri⟩ := List.mem_map.mp hmem
      have hne := (List.mem_filter.mp hs).2
      simp [huri] at hne
    simp only [read, List.map_append, List.map_cons, List.map_nil]
    exact hforgotten.single.append (List.nodup_singleton _) (by simpa using hfresh)
  · exact hforgotten.indexed.remember hforgotten.past Memory.forget_self hdescribes

/-- Each action keeps a cache and the memory that it stands for in step. -/
theorem Refines.act (h : c.Refines m) (hact : c.act a = .ok d) : d.Refines (m.step a) := by
  cases a with
  | invalidate uri =>
    cases hact
    exact h.invalidate uri
  | clear =>
    cases hact
    exact h.clear
  | get uri version text =>
    rw [Cache.act] at hact
    have hanswers := answers_get c uri version text
    generalize hget : c.get uri version text = answer at hact hanswers
    cases hanswers with
    | kept hs hversion =>
      cases hact
      cases hversion
      rw [h.step_kept hs]
      exact h
    | filed hlacks he =>
      cases hact
      rw [h.step_lacks hlacks]
      exact h.filed he
    | failed => cases hact

theorem Refines.foldlM (h : c.Refines m) (hrun : as.foldlM Cache.act c = .ok d) :
    d.Refines (as.foldl Memory.step m) := by
  induction as generalizing c m with
  | nil =>
    cases hrun
    exact h
  | cons a as ih =>
    rw [List.foldlM_cons] at hrun
    cases hact : c.act a with
    | error err => rw [hact] at hrun; cases hrun
    | ok c' =>
      rw [hact] at hrun
      exact ih (h.act hact) hrun

theorem Refines.run (hrun : run as = .ok c) : c.Refines (Memory.run as) :=
  refines_empty.foldlM hrun

/-! ## What can be seen of the cache -/

/-- What a cache shows is what the memory says: a document that is held in the version asked for is
given as it was read, a document is given as the memory has it after the request, and membership,
size and index are those of the memory, which allows for no other index. -/
structure Shows (c : Cache) (m : Memory) : Prop where
  held : ∀ uri g text, m.at? uri = some g → c.get uri g.version text = (c, .ok (g.stored uri))
  given : ∀ uri version text s, (c.get uri version text).2 = .ok s →
    ∃ g, (m.step (.get uri version text)).at? uri = some g ∧ g.version = version ∧ s = g.stored uri
  contains : ∀ uri, c.contains uri = (m.at? uri).isSome
  size : (c.size : ℕ∞) = {uri | (m.at? uri).isSome}.encard
  indexed : m.Indexed c.index
  only : ∀ x, m.Indexed x → ∀ id, c.entries id = x.entries id

/-- A document that is there in the version asked for is not read again. -/
theorem Refines.get_held (h : c.Refines m) {g : Held} (hg : m.at? uri = some g) :
    c.get uri g.version text = (c, .ok (g.stored uri)) := by
  have hfound := h.found uri
  rw [hg, Option.map_some] at hfound
  have hanswers := answers_get c uri g.version text
  generalize c.get uri g.version text = answer at hanswers
  cases hanswers with
  | kept hs _ =>
    rw [hfound] at hs
    cases hs
    rfl
  | filed hlacks _ | failed hlacks _ => exact (hlacks _ hfound rfl).elim

/-- What is handed out is what the memory holds at the address. -/
theorem Refines.get_given (h : c.Refines m) {s : Stored}
    (hget : (c.get uri version text).2 = .ok s) :
    ∃ g, (m.step (.get uri version text)).at? uri = some g ∧ g.version = version ∧
      s = g.stored uri := by
  have hanswers := answers_get c uri version text
  generalize c.get uri version text = answer at hget hanswers
  cases hanswers with
  | kept hs hversion =>
    cases hget
    cases hversion
    rw [h.step_kept hs]
    obtain ⟨g, hg, rfl⟩ := h.held_of_find hs
    exact ⟨g, hg, rfl, rfl⟩
  | filed hlacks _ =>
    cases hget
    rw [h.step_lacks hlacks]
    refine ⟨_, Memory.remember_self, rfl, ?_⟩
    rw [Held.stored, h.readings]
  | failed => cases hget

theorem Refines.contains (h : c.Refines m) (uri : Text) : c.contains uri = (m.at? uri).isSome := by
  rw [Cache.contains, h.found, Option.isSome_map]

theorem mem_uris : uri ∈ c.documents.map Stored.uri ↔ c.contains uri := by
  rw [Cache.contains, find?, List.find?_isSome]
  simp

theorem Refines.size (h : c.Refines m) : (c.size : ℕ∞) = {uri | (m.at? uri).isSome}.encard := by
  have hset : {uri | (m.at? uri).isSome} = ((c.documents.map Stored.uri).toFinset : Set Text) := by
    ext uri
    rw [Set.mem_ofPred_eq, ← h.contains, List.coe_toFinset, Set.mem_ofPred_eq, mem_uris]
  rw [hset, Set.encard_coe_eq_coe_finsetCard, List.toFinset_card_of_nodup h.single, List.length_map]
  rfl

/-- What a run of actions leaves shows the last readings of its documents. -/
theorem shows_run (hrun : run as = .ok c) : c.Shows (Memory.run as) := by
  have h := Refines.run hrun
  refine ⟨?_, ?_, h.contains, h.size, h.indexed, ?_⟩
  · intro uri g text hg
    exact h.get_held hg
  · intro uri version text s hget
    exact h.get_given hget
  · intro x hx id
    exact h.indexed.entries_eq hx id

/-- Two documents share an id, one of them is read again in an older version, one takes its id from
its address and is given up, and one is asked for in the version that is there. -/
def sharedTrail : List Action :=
  let a := "file:///a.collie".toList
  let b := "file:///b.collie".toList
  let c := "x/c.collie".toList
  [.get a 2 "#id shared\n".toList, .get b 1 "#id shared-collie\n".toList,
    .get c 1 "div\n".toList, .get a 1 "#id shared\n".toList, .get b 1 "other\n".toList,
    .invalidate c]

theorem shows_run_sharedTrail :
    ∃ c, run sharedTrail = .ok c ∧ c.Shows (Memory.run sharedTrail) ∧
      (c.entries "shared".toList).map IdEntry.uri =
        ["file:///b.collie".toList, "file:///a.collie".toList] := by
  have hcomputed : (run sharedTrail).toOption.map (fun c =>
      (c.entries "shared".toList).map IdEntry.uri) =
      some ["file:///b.collie".toList, "file:///a.collie".toList] := by decide +kernel
  obtain ⟨c, hrun, hshared⟩ := exists_run hcomputed
  exact ⟨c, hrun, shows_run hrun, hshared⟩

end Offside.Document.Cache
